import TagWire.Proofs.Generated.Services
import TagWire.Proofs.Generated.Typed
import TagWire.Rpc.Service

/-
  What the generated services do: a call is served by reading
  its argument, calling the method that is offered, and
  writing the result; and every method is bound to its full
  name.

  Main declarations:
    * `Generated.Implementation`
    * `Generated.AdaptedMethod.handler`
    * `Generated.ServiceItem.register`
    * `Generated.handler_eq_ofFunction`
    * `Generated.handler_eq_ofAction`
-/

------------------------------------------------------------
-- Services
------------------------------------------------------------

namespace TagWire

namespace Generated

variable {m : Type → Type} [Monad m]
variable {α β : Type}

/-
  An act of served code, in a monad of its own. There is no
  outcome where the code would not be accepted.
-/
abbrev Serve
    (m : Type → Type) :
    Type → Type :=
  ExceptT RpcError (OptionT m)

namespace Serve

/- Take over what code comes to. -/
def ofOutcome
    (outcome : Option (Except WireError α)) :
    Serve m α :=
  ExceptT.mk
    (OptionT.mk
      (pure (outcome.map (Except.mapError RpcError.wire))))

/- Take over an act that always has an outcome. -/
def lift
    (act : ExceptT RpcError m α) :
    Serve m α :=
  ExceptT.mk (OptionT.lift act.run)

/- There is no outcome. -/
def stuck : Serve m α :=
  ofOutcome none

end Serve

/-
  What offers the methods of a service: by the name of the
  method, from the data of the argument to that of the result.
-/
abbrev Implementation
    (m : Type → Type) :
    Type :=
  String → Datum → Serve m Datum

/- What an expression comes to where one name is known. -/
def Program.value
    (p : Program)
    (lib : JsonLibrary)
    (e : Expr)
    (name : String)
    (d : Datum) :
    Option (Except WireError Datum) :=
  Option.map (Except.map Prod.fst)
    (eval lib p e (Frame.enter "" name d))

variable (lib : JsonLibrary)
variable (p : Program)
variable (service : Implementation m)

/- What a method over bytes does. -/
def AdaptedMethod.handler
    (a : AdaptedMethod) :
    Handler (OptionT m) :=
  fun data => do
    let args ←
      Serve.ofOutcome (p.value lib a.args "req" (.bytes data))
    let reply ← service a.call args
    match a.reply with
    | some e => do
        let d ← Serve.ofOutcome (p.value lib e "reply" reply)
        match d with
        | .bytes bytes => return bytes
        | _ => Serve.stuck
    | none => return []

/- What the method of a name does. -/
def ServiceItem.handler
    (s : ServiceItem)
    (ident : String) :
    Handler (OptionT m) :=
  match s.adapted.find? (·.ident == ident) with
  | some a => a.handler lib p service
  | none => fun _ => Serve.stuck

/- What registering a service does to a router. -/
def ServiceItem.register
    (s : ServiceItem)
    (r : Router (OptionT m))
    (name : String) :
    Router (OptionT m) :=
  s.registrations.foldl
    (fun r g =>
      r.register (methodName name g.name)
        (s.handler lib p service g.method))
    r

------------------------------------------------------------
-- Values of Expressions
------------------------------------------------------------

variable {lib : JsonLibrary}
variable {p : Program}

/- A message is read alike from within any function. -/
theorem unmarshalInto_apply
    (type : String)
    (d : Datum)
    (f g : Frame) :
    unmarshalInto lib p type d f = unmarshalInto lib p type d g := by
  rw [unmarshalInto]
  cases p.message? type <;> rfl

theorem value_unmarshal
    (type name : String)
    (data : List UInt8) :
    p.value lib (.unmarshal type (.var name)) name
        (.bytes data) =
      p.unmarshal lib type data := by
  unfold Program.value Program.unmarshal Run.outcome
  rw [eval, Run.bind_apply, eval_var_enter,
    unmarshalInto_apply _ _ (Frame.enter "" "" .unit)
      (Frame.enter "" name (.bytes data))]
  simp only [Run.andThen_ok, Run.bind_apply, Run.get_apply]
  rcases unmarshalInto lib p type (.bytes data)
      (Frame.enter "" name (.bytes data)) with
    _ | ⟨e | ⟨d, g⟩⟩ <;> rfl

/- A message is written alike behind the same output. -/
theorem marshalInto_output
    (d : Datum)
    {f g : Frame}
    (h : f.output = g.output) :
    Option.map (Except.map fun x => x.2.output)
        (marshalInto lib p d f) =
      Option.map (Except.map fun x => x.2.output)
        (marshalInto lib p d g) := by
  cases d with
  | struct type fields =>
      simp only [marshalInto, Run.bind_apply]
      cases p.message? type with
      | none => rfl
      | some m =>
          simp only [Run.lift_some, Run.andThen_ok,
            Run.bind_apply, Run.get_apply, Run.set_apply, h]
          generalize runBody lib p m.marshalInto _ = r
          rcases r with _ | ⟨e | ⟨d, g'⟩⟩ <;> rfl
  | _ => simp only [marshalInto]; rfl

theorem value_marshal
    (name : String)
    (d : Datum) :
    p.value lib (.marshal (.borrow (.var name))) name d =
      (p.marshal lib d).map (Except.map Datum.bytes) := by
  unfold Program.value Program.marshal Run.outcome
  rw [eval, Run.bind_apply, eval, eval_var_enter,
    marshalInto_output d
      (f := Frame.enter "" "" .unit)
      (g := { Frame.enter "" name d with output := [] }) rfl]
  simp only [Run.andThen_ok, Run.bind_apply, Run.get_apply,
    Run.set_apply]
  rcases marshalInto lib p d
      { Frame.enter "" name d with output := [] } with
    _ | ⟨e | ⟨d', g⟩⟩ <;> rfl

------------------------------------------------------------
-- Services of Structures
------------------------------------------------------------

variable [LawfulMonad m]

namespace Serve

/- A result that is there is taken over as it is. -/
theorem ofOutcome_some
    (r : Except WireError α) :
    (ofOutcome (some r) : Serve m α) =
      lift (Handler.wire r) := by
  simp [ofOutcome, lift, Handler.wire]
  rfl

theorem wire_map
    (f : α → β)
    (r : Except WireError α) :
    (Handler.wire (r.map f) : ExceptT RpcError m β) =
      f <$> Handler.wire r := by
  cases r <;> simp [Handler.wire] <;> rfl

theorem lift_pure
    (a : α) :
    (lift (pure a) : Serve m α) = pure a := by
  simp [lift]
  rfl

theorem lift_bind
    (act : ExceptT RpcError m α)
    (f : α → ExceptT RpcError m β) :
    (lift (act >>= f) : Serve m β) =
      lift act >>= fun a => lift (f a) := by
  apply ExceptT.ext
  apply OptionT.ext
  simp only [lift, ExceptT.run_bind, ExceptT.run_mk,
    OptionT.run_bind, OptionT.run_lift, Option.elimM,
    bind_assoc, pure_bind]
  refine bind_congr fun r => ?_
  cases r <;> simp

theorem lift_map
    (f : α → β)
    (act : ExceptT RpcError m α) :
    (lift (f <$> act) : Serve m β) = f <$> lift act := by
  rw [map_eq_pure_bind, lift_bind, map_eq_pure_bind]
  exact bind_congr fun a => lift_pure _

end Serve

variable [WireMessage α] [WireMessage β]
variable {request reply : String}
variable {putRequest : α → Datum} {putReply : β → Datum}
variable {service : Implementation m}

/-
  The adapter of a method that replies with a message does
  what the handler of a function on structures does.
-/
theorem handler_eq_ofFunction
    (hRequest : RunsAs lib p request putRequest)
    (hReply : RunsAs lib p reply putReply)
    {call : String}
    {f : α → ExceptT RpcError m β}
    (hService :
      ∀ x, service call (putRequest x) =
        Serve.lift (putReply <$> f x))
    (ident : String)
    (data : List UInt8) :
    AdaptedMethod.handler lib p service
        ⟨ident, .unmarshal request (.var "req"), call,
          some (.marshal (.borrow (.var "reply")))⟩ data =
      Serve.lift (Handler.ofFunction f data) := by
  have hWritten (y : β) :
      (do
        let d ←
          Serve.ofOutcome
            (p.value lib (.marshal (.borrow (.var "reply")))
              "reply" (putReply y))
        match d with
        | .bytes bytes => return bytes
        | _ => Serve.stuck : Serve m (List UInt8)) =
        Serve.lift (Handler.wire (WireMessage.encode y)) := by
    rw [value_marshal, hReply.marshal, Option.map_some,
      Serve.ofOutcome_some, Serve.wire_map, Serve.lift_map,
      bind_map_left, bind_pure]
  show (Serve.ofOutcome _ >>= fun args =>
    service call args >>= _) = _
  show _ = Serve.lift (Handler.wire _ >>= _)
  rw [value_unmarshal, hRequest.unmarshal,
    Serve.ofOutcome_some, Serve.wire_map, Serve.lift_map,
    bind_map_left, Serve.lift_bind]
  refine bind_congr fun x => ?_
  rw [hService, Serve.lift_map, bind_map_left, Serve.lift_bind]
  exact bind_congr hWritten

/- The same for a method without a reply. -/
theorem handler_eq_ofAction
    (hRequest : RunsAs lib p request putRequest)
    {call : String}
    {f : α → ExceptT RpcError m Unit}
    (hService :
      ∀ x, service call (putRequest x) =
        Serve.lift ((fun _ => Datum.unit) <$> f x))
    (ident : String)
    (data : List UInt8) :
    AdaptedMethod.handler lib p service
        ⟨ident, .unmarshal request (.var "req"), call, none⟩
        data =
      Serve.lift (Handler.ofAction f data) := by
  show (Serve.ofOutcome _ >>= fun args =>
    service call args >>= fun _ => pure []) = _
  show _ = Serve.lift (Handler.wire _ >>= _)
  rw [value_unmarshal, hRequest.unmarshal,
    Serve.ofOutcome_some, Serve.wire_map, Serve.lift_map,
    bind_map_left, Serve.lift_bind]
  refine bind_congr fun x => ?_
  rw [hService, Serve.lift_map, bind_map_left, Serve.lift_bind]
  exact bind_congr fun _ => (Serve.lift_pure _).symm

end Generated

end TagWire
