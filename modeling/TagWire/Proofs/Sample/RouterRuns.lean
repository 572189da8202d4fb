import TagWire.Proofs.Sample.Calls
import TagWire.Proofs.Sample.Contacts
import TagWire.Proofs.Text.Utf8Order
import TagWire.Sample.Directory

/-
  What a router answers, and what a search service keeps of
  pings, after any registrations and calls. The services are
  registered by the code that is generated for them. Whatever
  is bound last to a name answers it, be it bound alone or by
  a service whose full name of a method happens to be this
  name.

  Main declarations:
    * `Sample.Silent`
    * `Sample.Action` and `Sample.Session`
    * `Sample.lastBound?` and `Sample.recorded`
    * `Sample.Session.reflects_step`
    * `Sample.Session.generated_accounts_after`
-/

------------------------------------------------------------
-- Acts That Keep No Ping
------------------------------------------------------------

namespace TagWire

namespace Sample

open Generated

/- Those that offer services may keep the numbers of pings. -/
abbrev Keeping : Type → Type :=
  StateM (List Nonce)

variable {α β : Type}

/- What an act comes to, and the numbers kept behind it. -/
def outcomeFrom
    (nonces : List Nonce)
    (act : Serve Keeping α) :
    Option (Except RpcError α) × List Nonce :=
  act.run.run.run nonces

/- An act leaves the numbers of pings as they are. -/
def Silent
    (act : Serve Keeping α) : Prop :=
  ∀ nonces, (outcomeFrom nonces act).2 = nonces

theorem silent_pure
    (a : α) :
    Silent (pure a) :=
  fun _ => rfl

theorem silent_throw
    (e : RpcError) :
    Silent (throw e : Serve Keeping α) :=
  fun _ => rfl

theorem silent_ofOutcome
    (outcome : Option (Except WireError α)) :
    Silent (Serve.ofOutcome outcome) :=
  fun _ => rfl

/- A sequence keeps no ping if its parts keep none. -/
theorem silent_bind
    {act : Serve Keeping α}
    {f : α → Serve Keeping β}
    (hAct : Silent act)
    (hf : ∀ a, Silent (f a)) :
    Silent (act >>= f) := by
  intro nonces
  have hSame := hAct nonces
  have hNext (a : α) := hf a nonces
  unfold outcomeFrom at hSame hNext ⊢
  rw [ExceptT.run_bind, OptionT.run_bind, Option.elimM,
    StateT.run_bind]
  rcases hRun : act.run.run.run nonces with
    ⟨_ | _ | a, nonces'⟩ <;>
    rw [hRun] at hSame <;>
    obtain rfl : nonces' = nonces := hSame
  · rfl
  · rfl
  · exact hNext a

/- Reading a request and writing a reply keeps no ping. -/
theorem silent_handler
    (lib : JsonLibrary)
    (p : Program)
    {service : Implementation Keeping}
    {a : AdaptedMethod}
    (h : ∀ d, Silent (service a.call d))
    (data : List UInt8) :
    Silent (a.handler lib p service data) := by
  refine silent_bind (silent_ofOutcome _) fun args => ?_
  refine silent_bind (h args) fun reply => ?_
  cases a.reply with
  | none => exact silent_pure _
  | some e =>
      refine silent_bind (silent_ofOutcome _) fun d => ?_
      cases d <;>
        first
        | exact silent_pure _
        | exact silent_ofOutcome none

------------------------------------------------------------
-- Handlers and Services
------------------------------------------------------------

/- A handler that has nothing to do with pings. -/
structure SilentHandler where
  handler : Handler (OptionT Keeping)
  silent : ∀ data, Silent (handler data)

/-
  A search service that keeps the numbers of pings, in the
  order in which they come, and does so by nothing else.
-/
structure Recorder where
  implementation : Implementation Keeping
  search_silent : ∀ d, Silent (implementation "search" d)
  record_eq :
    ∀ ping : Ping,
      implementation "record" ping.datum =
        Serve.lift
          ((fun _ => .unit) <$>
            modify (fun nonces => nonces ++ [ping.nonce]))

/- A directory that has nothing to do with pings. -/
structure SilentDirectory where
  implementation : Implementation Keeping
  find_silent : ∀ d, Silent (implementation "find" d)

/- The engine is such a search service. -/
def engineRecorder : Recorder where
  implementation := engine.implementation
  search_silent := by
    intro d
    show Silent (match SearchRequest.ofDatum? d with
      | some x => _
      | none => _)
    cases SearchRequest.ofDatum? d with
    | none => exact silent_ofOutcome none
    | some x =>
        show Silent (Serve.lift (_ <$> if _ then _ else _))
        split <;> exact fun _ => rfl
  record_eq := fun _ => rfl

/- A handler that refuses every call has nothing to do. -/
def refusal : SilentHandler where
  handler _ := throw (.service "refused")
  silent _ := silent_throw _

/- The directory of names is such a directory. -/
def namesOnly : SilentDirectory where
  implementation := emptyDirectory.implementation
  find_silent := by
    intro d
    simp only [Directory.implementation]
    cases Lookup.ofDatum? d with
    | none => exact silent_ofOutcome none
    | some l => exact fun _ => rfl

/- What is bound to a name, by which way of binding it. -/
inductive Bound where
| single (h : SilentHandler)
| search (r : Recorder)
| record (r : Recorder)
| find (d : SilentDirectory)

/- What answers the calls. -/
def Bound.handler
    (lib : JsonLibrary) :
    Bound → Handler (OptionT Keeping)
| single h => h.handler
| search r =>
    searchItem.handler lib searchProgram r.implementation
      "search_handler"
| record r =>
    searchItem.handler lib searchProgram r.implementation
      "record_handler"
| find d =>
    directoryItem.handler lib contactsProgram d.implementation
      "find_handler"

end Sample

end TagWire

------------------------------------------------------------
-- Sessions
------------------------------------------------------------

namespace TagWire

namespace Sample

open Generated

/- What can be done with a router. -/
inductive Action where
| bind (method : String) (h : SilentHandler)
| bindSearch (service : String) (r : Recorder)
| bindDirectory (service : String) (d : SilentDirectory)
| call (method : String) (data : List UInt8)

namespace Action

/- The names that an action binds, one after another. -/
def bindings : Action → List (String × Bound)
| bind method h => [(method, .single h)]
| bindSearch service r =>
    [
      (methodName service "Search", .search r),
      (methodName service "Record", .record r)
    ]
| bindDirectory service d =>
    [(methodName service "Find", .find d)]
| call _ _ => []

end Action

/- A router, and the numbers of pings that services keep. -/
structure Session where
  router : Router (OptionT Keeping)
  nonces : List Nonce

variable (lib : JsonLibrary)

namespace Session

/- Nothing is bound, and no ping has come. -/
def start : Session :=
  ⟨Router.empty, []⟩

/- The reply to a call, and the numbers kept behind it. -/
def call
    (σ : Session)
    (method : String)
    (data : List UInt8) :
    Option (Except RpcError (List UInt8)) × List Nonce :=
  outcomeFrom σ.nonces (σ.router.call method data)

/- What becomes of a session by an action. -/
def step
    (σ : Session) :
    Action → Session
| .bind method h =>
    ⟨σ.router.register method h.handler, σ.nonces⟩
| .bindSearch service r =>
    ⟨searchItem.register lib searchProgram r.implementation
      σ.router service, σ.nonces⟩
| .bindDirectory service d =>
    ⟨directoryItem.register lib contactsProgram d.implementation
      σ.router service, σ.nonces⟩
| .call method data => ⟨σ.router, (σ.call method data).2⟩

/- The session behind some actions. -/
def after
    (history : List Action) :
    Session :=
  history.foldl (step lib) start

end Session

------------------------------------------------------------
-- Histories
------------------------------------------------------------

/- All bindings of some actions, one after another. -/
def bindingsOf
    (history : List Action) :
    List (String × Bound) :=
  history.flatMap Action.bindings

/- What has been bound to a name last. -/
def lastBound?
    (history : List Action)
    (method : String) :
    Option Bound :=
  (bindingsOf history).reverse.lookup method

/-
  The number that an action adds: that of the ping in a call
  of a name to which a service has bound its pings last.
-/
def nonce?
    (before : List Action) :
    Action → Option Nonce
| .call method data =>
    match lastBound? before method,
        searchProgram.unmarshal lib "Ping" data with
    | some (.record _), some (.ok d) =>
        (Ping.ofDatum? d).map Ping.nonce
    | _, _ => none
| _ => none

/- The numbers that actions add behind others. -/
def recordedBehind
    (before : List Action) :
    List Action → List Nonce
| [] => []
| a :: rest =>
    (nonce? lib before a).toList ++
      recordedBehind (before ++ [a]) rest

/- The numbers of pings in a history, in order. -/
def recorded
    (history : List Action) :
    List Nonce :=
  recordedBehind lib [] history

theorem lastBound?_concat
    (history : List Action)
    (a : Action)
    (method : String) :
    lastBound? (history ++ [a]) method =
      (a.bindings.reverse.lookup method).or
        (lastBound? history method) := by
  unfold lastBound? bindingsOf
  rw [List.flatMap_append, List.reverse_append,
    List.lookup_append]
  simp

theorem recordedBehind_concat
    (before history : List Action)
    (a : Action) :
    recordedBehind lib before (history ++ [a]) =
      recordedBehind lib before history ++
        (nonce? lib (before ++ history) a).toList := by
  induction history generalizing before with
  | nil => simp [recordedBehind]
  | cons b rest ih =>
      rw [List.cons_append, recordedBehind, ih, recordedBehind,
        List.append_assoc, List.append_assoc,
        List.singleton_append]

theorem recorded_concat
    (history : List Action)
    (a : Action) :
    recorded lib (history ++ [a]) =
      recorded lib history ++ (nonce? lib history a).toList :=
  recordedBehind_concat lib [] history a

/- Pings are told apart by their data. -/
theorem Ping.datum_injective :
    Function.Injective Ping.datum := by
  intro ping ping' h
  have hBoth := congrArg Ping.ofDatum? h
  rw [Ping.ofDatum?_datum, Ping.ofDatum?_datum] at hBoth
  exact Option.some.inj hBoth

/- Bytes are read as a ping, or there is an error. -/
theorem unmarshal_ping
    (data : List UInt8) :
    (∃ ping : Ping,
      searchProgram.unmarshal lib "Ping" data =
        some (.ok ping.datum)) ∨
    ∃ e,
      searchProgram.unmarshal lib "Ping" data =
        some (.error e) := by
  rw [(Ping.runsAs lib).unmarshal]
  cases (WireMessage.decode data : Except WireError Ping) with
  | ok ping => exact .inl ⟨ping, rfl⟩
  | error e => exact .inr ⟨e, rfl⟩

/- A call adds a number where a ping reaches its handler. -/
theorem nonce?_call_eq_some_iff
    {before : List Action}
    {method : String}
    {data : List UInt8}
    {n : Nonce} :
    nonce? lib before (.call method data) = some n ↔
      ∃ r ping,
        lastBound? before method = some (.record r) ∧
          searchProgram.unmarshal lib "Ping" data =
            some (.ok (Ping.datum ping)) ∧
          ping.nonce = n := by
  rw [nonce?]
  rcases unmarshal_ping lib data with ⟨ping, hPing⟩ | ⟨e, hPing⟩
  · have hSame (ping' : Ping) :
        ping.datum = ping'.datum ↔ ping = ping' :=
      Ping.datum_injective.eq_iff
    rw [hPing]
    cases hBound : lastBound? before method with
    | none => simp
    | some b =>
        cases b <;> simp [Ping.ofDatum?_datum, hSame]
  · rw [hPing]
    cases hBound : lastBound? before method with
    | none => simp
    | some b => cases b <;> simp

/- Nothing is bound last to a name that is never bound. -/
theorem lastBound?_eq_none_iff
    {history : List Action}
    {method : String} :
    lastBound? history method = none ↔
      ∀ a ∈ history, method ∉ a.bindings.map Prod.fst := by
  unfold lastBound? bindingsOf
  simp only [List.lookup_eq_none_iff, List.mem_reverse,
    List.mem_flatMap, bne_iff_ne, List.mem_map]
  constructor
  · intro h a ha hBound
    rcases hBound with ⟨b, hb, rfl⟩
    exact h b ⟨a, ha, hb⟩ rfl
  · intro h b hb hSame
    rcases hb with ⟨a, ha, hb⟩
    exact h a ha ⟨b, hb, hSame.symm⟩

end Sample

end TagWire

------------------------------------------------------------
-- Bindings in a Router
------------------------------------------------------------

namespace TagWire

namespace Router

variable {m : Type → Type}

/- The methods are the names to which something is bound. -/
theorem mem_methods_iff
    {r : Router m}
    {method : String} :
    method ∈ r.methods ↔ r.handler? method ≠ none := by
  unfold methods Table.keys handler? Table.get?
  rw [Ne, List.lookup_eq_none_iff]
  simp only [bne_iff_ne, List.mem_map]
  constructor
  · intro h hNone
    rcases h with ⟨e, he, rfl⟩
    exact hNone e he rfl
  · intro h
    by_contra hNone
    exact h fun e he hSame => hNone ⟨e, he, hSame.symm⟩

/- The methods ascend, compared as texts or as bytes. -/
theorem pairwise_methods
    (r : Router m) :
    r.methods.Pairwise fun method method' =>
      Text.Utf8.encode method < Text.Utf8.encode method' := by
  refine List.pairwise_map.mpr ?_
  exact r.handlers.ascending.imp
    fun h => Text.Utf8.encode_lt_of_compare h

end Router

namespace Sample

open Generated Router

variable (lib : JsonLibrary)

/- Bind some names in turn. -/
def registerAll
    (r : Router (OptionT Keeping))
    (bindings : List (String × Bound)) :
    Router (OptionT Keeping) :=
  bindings.foldl (fun r b => r.register b.1 (b.2.handler lib)) r

/- Each name finds what is bound to it last. -/
theorem handler?_registerAll
    (r : Router (OptionT Keeping))
    (bindings : List (String × Bound))
    (method : String) :
    (registerAll lib r bindings).handler? method =
      ((bindings.reverse.lookup method).map
        (Bound.handler lib)).or (r.handler? method) := by
  induction bindings using List.reverseRecOn with
  | nil => rfl
  | append_singleton front b ih =>
      have hLast :
          registerAll lib r (front ++ [b]) =
            (registerAll lib r front).register b.1
              (b.2.handler lib) := by
        simp [registerAll]
      rw [hLast, handler?_register, ih, List.reverse_append,
        List.reverse_singleton, List.singleton_append,
        List.lookup_cons]
      by_cases hSame : method = b.1
      · rw [if_pos hSame, beq_iff_eq.mpr hSame]
        rfl
      · rw [if_neg hSame, beq_false_of_ne hSame]

/- An action binds its names in turn, and no others. -/
theorem Session.router_step
    (σ : Session)
    (a : Action) :
    (σ.step lib a).router =
      registerAll lib σ.router a.bindings := by
  cases a <;> rfl

end Sample

end TagWire

------------------------------------------------------------
-- Calls
------------------------------------------------------------

namespace TagWire

namespace Sample

open Generated

variable (lib : JsonLibrary)

/- What is not the handler of pings keeps none. -/
theorem Bound.silent_handler
    {b : Bound}
    (h : ∀ r, b ≠ .record r)
    (data : List UInt8) :
    Silent (b.handler lib data) := by
  cases b with
  | single handler => exact handler.silent data
  | search r =>
      exact Sample.silent_handler lib _ r.search_silent data
  | record r => exact absurd rfl (h r)
  | find d =>
      exact Sample.silent_handler lib _ d.find_silent data

/- What the handler of pings does, by what is read. -/
theorem Recorder.handler_eq
    (r : Recorder)
    (data : List UInt8) :
    (Bound.record r).handler lib data =
      Serve.lift
        (Handler.ofAction
          (fun ping : Ping =>
            modify (fun nonces => nonces ++ [ping.nonce]))
          data) :=
  handler_eq_ofAction (Ping.runsAs lib) r.record_eq _ data

/-
  The handler of pings keeps the number of a ping and has an
  empty reply, or it keeps nothing and reports why there is no
  ping.
-/
theorem Recorder.outcome_handler
    (r : Recorder)
    (data : List UInt8)
    (nonces : List Nonce) :
    (∃ ping : Ping,
      searchProgram.unmarshal lib "Ping" data =
          some (.ok ping.datum) ∧
        outcomeFrom nonces ((Bound.record r).handler lib data) =
          (some (.ok []), nonces ++ [ping.nonce])) ∨
    ∃ e,
      searchProgram.unmarshal lib "Ping" data =
          some (.error e) ∧
        outcomeFrom nonces ((Bound.record r).handler lib data) =
          (some (.error (.wire e)), nonces) := by
  rw [r.handler_eq, (Ping.runsAs lib).unmarshal]
  unfold Handler.ofAction
  cases (WireMessage.decode data : Except WireError Ping) with
  | ok ping => exact .inl ⟨ping, rfl, rfl⟩
  | error e => exact .inr ⟨e, rfl, rfl⟩

/-
  What the names of a router and the numbers kept say about a
  history. This is what each action preserves.
-/
structure Session.Reflects
    (σ : Session)
    (history : List Action) : Prop where
  handlers :
    ∀ method, σ.router.handler? method =
      (lastBound? history method).map (Bound.handler lib)
  nonces : σ.nonces = recorded lib history

namespace Session

open Router

variable {lib : JsonLibrary}
variable {σ : Session}
variable {history : List Action}

/- A call goes to the handler bound last. -/
theorem Reflects.call_of_bound
    (h : σ.Reflects lib history)
    {method : String}
    {b : Bound}
    (hBound : lastBound? history method = some b)
    (data : List UInt8) :
    σ.call method data =
      outcomeFrom σ.nonces (b.handler lib data) := by
  unfold call Router.call
  rw [h.handlers, hBound]
  rfl

/- A call of a name without a handler fails. -/
theorem Reflects.call_of_unbound
    (h : σ.Reflects lib history)
    {method : String}
    (hBound : lastBound? history method = none)
    (data : List UInt8) :
    σ.call method data =
      (some (.error (.unknownMethod method)), σ.nonces) := by
  unfold call Router.call
  rw [h.handlers, hBound]
  rfl

/- A call keeps the number of its ping, if it is kept. -/
theorem Reflects.nonces_call
    (h : σ.Reflects lib history)
    (method : String)
    (data : List UInt8) :
    (σ.call method data).2 =
      σ.nonces ++
        (nonce? lib history (.call method data)).toList := by
  cases hBound : lastBound? history method with
  | none =>
      rw [h.call_of_unbound hBound, nonce?, hBound]
      exact (List.append_nil _).symm
  | some b =>
      rw [h.call_of_bound hBound, nonce?, hBound]
      cases b with
      | record r =>
          rcases r.outcome_handler lib data σ.nonces with
            ⟨ping, hPing, hCall⟩ | ⟨e, hPing, hCall⟩ <;>
            rw [hCall, hPing]
          · simp [Ping.ofDatum?_datum]
          · exact (List.append_nil _).symm
      | _ =>
          rw [Bound.silent_handler lib (by simp)]
          exact (List.append_nil _).symm

/- At the start nothing has been done. -/
theorem reflects_start :
    start.Reflects lib [] where
  handlers := fun _ => rfl
  nonces := rfl

/- An action is reflected if what was done before is. -/
theorem reflects_step
    (h : σ.Reflects lib history)
    (a : Action) :
    (σ.step lib a).Reflects lib (history ++ [a]) where
  handlers := by
    intro method
    rw [router_step, handler?_registerAll, h.handlers,
      lastBound?_concat, Option.map_or]
  nonces := by
    rw [recorded_concat, ← h.nonces]
    cases a with
    | call method data => exact h.nonces_call method data
    | _ => exact (List.append_nil _).symm

/- Whatever is done is reflected. -/
theorem reflects_after
    (history : List Action) :
    (after lib history).Reflects lib history := by
  induction history using List.reverseRecOn with
  | nil => exact reflects_start
  | append_singleton front a ih =>
      have hStep :
          after lib (front ++ [a]) =
            (after lib front).step lib a := by
        simp [after]
      rw [hStep]
      exact reflects_step ih a

end Session

end Sample

end TagWire

------------------------------------------------------------
-- What a Session Owes to Its History
------------------------------------------------------------

namespace TagWire

namespace Sample

open Generated

namespace Session

/-
  The methods are the names that have been bound, in the order
  of their bytes. The handler bound last to a name answers its
  calls, and other names are unknown. Calls bind nothing. The
  numbers kept are those of the pings that reached a handler
  of pings: such a call has an empty reply, and other calls
  keep nothing.
-/
structure Accounts
    (lib : JsonLibrary)
    (σ : Session)
    (history : List Action) : Prop where
  ascending :
    σ.router.methods.Pairwise fun method method' =>
      Text.Utf8.encode method < Text.Utf8.encode method'
  mem_methods_iff :
    ∀ method, method ∈ σ.router.methods ↔
      ∃ a ∈ history, method ∈ a.bindings.map Prod.fst
  call_bound :
    ∀ method ∈ σ.router.methods,
      ∃ b, lastBound? history method = some b ∧
        ∀ data, σ.call method data =
          outcomeFrom σ.nonces (b.handler lib data)
  call_unbound :
    ∀ method, method ∉ σ.router.methods →
      ∀ data, σ.call method data =
        (some (.error (.unknownMethod method)), σ.nonces)
  router_call :
    ∀ method data,
      (σ.step lib (.call method data)).router = σ.router
  nonces : σ.nonces = recorded lib history
  call_ping :
    ∀ method r data ping,
      lastBound? history method = some (.record r) →
        searchProgram.unmarshal lib "Ping" data =
            some (.ok (Ping.datum ping)) →
          σ.call method data =
            (some (.ok []), σ.nonces ++ [ping.nonce])
  call_other :
    ∀ method data,
      (∀ r ping,
        lastBound? history method = some (.record r) →
          searchProgram.unmarshal lib "Ping" data ≠
            some (.ok (Ping.datum ping))) →
        (σ.call method data).2 = σ.nonces

theorem accounts_of_reflects
    {lib : JsonLibrary}
    {σ : Session}
    {history : List Action}
    (h : σ.Reflects lib history) :
    σ.Accounts lib history := by
  have hMethods :
      ∀ method, method ∈ σ.router.methods ↔
        lastBound? history method ≠ none := by
    intro method
    rw [Router.mem_methods_iff, h.handlers, Ne,
      Option.map_eq_none_iff]
  exact
    {
      ascending := Router.pairwise_methods _
      mem_methods_iff := by
        intro method
        rw [hMethods, Ne, lastBound?_eq_none_iff]
        simp
      call_bound := by
        intro method hMethod
        rcases Option.ne_none_iff_exists'.mp
            ((hMethods method).mp hMethod) with
          ⟨b, hBound⟩
        exact ⟨b, hBound, h.call_of_bound hBound⟩
      call_unbound := by
        intro method hMethod
        have hUnbound := (hMethods method).not.mp hMethod
        exact h.call_of_unbound (not_not.mp hUnbound)
      router_call := fun _ _ => rfl
      nonces := h.nonces
      call_ping := by
        intro method r data ping hBound hPing
        rw [h.call_of_bound hBound]
        rcases r.outcome_handler lib data σ.nonces with
          ⟨ping', hPing', hCall⟩ | ⟨e, hError, _⟩
        · rw [hPing'] at hPing
          have hDatum := Except.ok.inj (Option.some.inj hPing)
          rw [hCall, Ping.datum_injective hDatum]
        · rw [hPing] at hError
          cases hError
      call_other := by
        intro method data hOther
        have hNone :
            nonce? lib history (.call method data) = none := by
          refine Option.eq_none_iff_forall_ne_some.mpr ?_
          intro n hSome
          rcases (nonce?_call_eq_some_iff lib).mp hSome with
            ⟨r, ping, hBound, hPing, _⟩
          exact hOther r ping hBound hPing
        rw [h.nonces_call, hNone]
        exact List.append_nil _
    }

/-
  With the code that is generated for the two services:
  whatever is bound and called from the start, and so behind
  each action, the session is as its history says.
-/
theorem generated_accounts_after
    (lib : JsonLibrary)
    (history : List Action) :
    Generates "search.dg" "search" searchText .binary
      searchProgram [searchItem] ∧
    Generates "contacts.dg" "contacts" contactsText .json
      contactsProgram [directoryItem] ∧
    (after lib history).Accounts lib history :=
  ⟨generates_search, generates_contacts,
    accounts_of_reflects (reflects_after history)⟩

/- Pings are kept as long as their handler is bound last. -/
example
    (lib : JsonLibrary) :
    recorded lib
      [
        .bindSearch "s" engineRecorder,
        .call "s.Record" [1, 5, 0, 0, 0, 0, 0, 0, 0],
        .bindDirectory "s.Record" namesOnly,
        .bind "s.Record" refusal,
        .call "s.Record" [1, 6, 0, 0, 0, 0, 0, 0, 0],
        .bindSearch "s" engineRecorder,
        .call "s.Record" [1, 7, 0, 0, 0, 0, 0, 0, 0]
      ] = [5, 7] := by
  simp only [recorded, recordedBehind, nonce?,
    (Ping.runsAs lib).unmarshal]
  decide +kernel

end Session

end Sample

end TagWire
