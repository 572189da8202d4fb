import TagWire.Proofs.Generated.Presence

/-
  What generated code writes for the data of a value is what
  the value is encoded as, and where there is an error, it is
  the same one.

  Main declarations:
    * `Generated.Meets`
    * `Generated.Writes`
    * `Generated.writes_transfer`
    * `Generated.marshal_datum`
-/

------------------------------------------------------------
-- Outcomes
------------------------------------------------------------

namespace TagWire

namespace Generated

variable {α β γ δ : Type}

/-
  What code comes to is like a result: a value that is related
  to it as is said, or the error that is wrapped in it.
-/
def Meets
    (outcome : Option (Except WireError α))
    (r : Except CodecError β)
    (Q : β → α → Prop) : Prop :=
  match r with
  | .ok b => ∃ a, outcome = some (.ok a) ∧ Q b a
  | .error e => ∃ w, e = .wire w ∧ outcome = some (.error w)

variable {outcome : Option (Except WireError α)}
variable {r : Except CodecError β}
variable {Q Q' : β → α → Prop}

theorem meets_ok
    {a : α}
    {b : β}
    (h : Q b a) :
    Meets (some (.ok a)) (.ok b) Q :=
  ⟨a, rfl, h⟩

theorem meets_error
    (w : WireError) :
    Meets (some (.error w)) (.error (.wire w)) Q :=
  ⟨w, rfl, rfl⟩

theorem Meets.mono
    (h : Meets outcome r Q)
    (hImp : ∀ b a, r = .ok b → Q b a → Q' b a) :
    Meets outcome r Q' := by
  cases r with
  | ok b =>
      rcases h with ⟨a, hOutcome, hQ⟩
      exact ⟨a, hOutcome, hImp b a rfl hQ⟩
  | error e => exact h

/- What code comes to may be looked at in part. -/
theorem Meets.map
    {part : α → γ}
    {Q' : β → γ → Prop}
    (h : Meets outcome r Q)
    (hImp : ∀ b a, Q b a → Q' b (part a)) :
    Meets (outcome.map (Except.map part)) r Q' := by
  cases r with
  | ok b =>
      rcases h with ⟨a, rfl, hQ⟩
      exact ⟨part a, rfl, hImp b a hQ⟩
  | error e =>
      rcases h with ⟨w, rfl, rfl⟩
      exact ⟨w, rfl, rfl⟩

/- The result may be made into something else. -/
theorem Meets.made
    {make : β → δ}
    {Q' : δ → α → Prop}
    (h : Meets outcome r Q)
    (hImp : ∀ b a, Q b a → Q' (make b) a) :
    Meets outcome (r.map make) Q' := by
  cases r with
  | ok b =>
      rcases h with ⟨a, hOutcome, hQ⟩
      exact ⟨a, hOutcome, hImp b a hQ⟩
  | error e => exact h

/- What follows is like what follows. -/
theorem Meets.andThen
    {outcome : Option (Except WireError (α × Frame))}
    {Q : β → α × Frame → Prop}
    {next : α → Run γ}
    {after : β → Except CodecError δ}
    {Q' : δ → γ × Frame → Prop}
    (h : Meets outcome r Q)
    (hNext :
      ∀ b a f, r = .ok b → Q b (a, f) →
        Meets (next a f) (after b) Q') :
    Meets (Run.andThen outcome next) (r >>= after) Q' := by
  cases r with
  | ok b =>
      rcases h with ⟨⟨a, f⟩, rfl, hQ⟩
      exact hNext b a f rfl hQ
  | error e =>
      rcases h with ⟨w, rfl, rfl⟩
      exact ⟨w, rfl, rfl⟩

/- What follows a result that is not touched any more. -/
theorem Meets.andThen_map
    {outcome : Option (Except WireError (α × Frame))}
    {Q : β → α × Frame → Prop}
    {next : α → Run γ}
    {Q' : β → γ × Frame → Prop}
    (h : Meets outcome r Q)
    (hNext :
      ∀ b a f, r = .ok b → Q b (a, f) →
        ∃ x, next a f = some (.ok x) ∧ Q' b x) :
    Meets (Run.andThen outcome next) r Q' := by
  cases r with
  | ok b =>
      rcases h with ⟨⟨a, f⟩, rfl, hQ⟩
      exact hNext b a f rfl hQ
  | error e =>
      rcases h with ⟨w, rfl, rfl⟩
      exact ⟨w, rfl, rfl⟩

end Generated

end TagWire

------------------------------------------------------------
-- Acts That Write
------------------------------------------------------------

namespace TagWire

namespace Generated

variable {α β : Type}

/- A frame with more bytes written. -/
def Frame.wrote
    (f : Frame)
    (bytes : List UInt8) :
    Frame :=
  { f with output := f.output ++ bytes }

@[simp]
theorem Frame.wrote_nil
    (f : Frame) :
    f.wrote [] = f := by
  rw [wrote, List.append_nil]

@[simp]
theorem Frame.wrote_wrote
    (f : Frame)
    (bytes bytes' : List UInt8) :
    (f.wrote bytes).wrote bytes' = f.wrote (bytes ++ bytes') := by
  simp [wrote]

/- An act writes the bytes of a result and does no more. -/
def Writes
    (f : Frame)
    (outcome : Option (Except WireError (α × Frame)))
    (r : Except CodecError (List UInt8)) : Prop :=
  Meets outcome r fun bytes x => x.2 = f.wrote bytes

variable {f : Frame}
variable {outcome : Option (Except WireError (α × Frame))}
variable {next : α → Run β}
variable {r r' : Except CodecError (List UInt8)}

theorem writes_nothing
    (a : α) :
    Writes f (some (.ok (a, f))) (.ok []) :=
  meets_ok f.wrote_nil.symm

/- An item is written as its bytes. -/
theorem writes_item
    (f : Frame)
    (item : Item) :
    Writes f (Run.write item f)
      (item.encode.mapError .wire) := by
  show Writes f
    (some ((item.append f.output).map _)) _
  unfold Item.append
  cases item.encode with
  | ok bytes => exact meets_ok rfl
  | error e => exact meets_error e

/- Bytes written before stand in front. -/
theorem Writes.behind
    {front : List UInt8}
    (h : Writes (f.wrote front) outcome r) :
    Writes f outcome
      (do
        let back ← r
        return front ++ back) := by
  cases r with
  | ok back =>
      rcases h with ⟨x, hOutcome, hx⟩
      exact ⟨x, hOutcome, hx.trans (f.wrote_wrote front back)⟩
  | error e => exact h

/- Bytes of one act stand in front of those of the next. -/
theorem Writes.andThen
    (h : Writes f outcome r)
    (hNext :
      ∀ a bytes, r = .ok bytes →
        Writes (f.wrote bytes) (next a (f.wrote bytes)) r') :
    Writes f (Run.andThen outcome next)
      (do
        let front ← r
        let back ← r'
        return front ++ back) := by
  refine Meets.andThen h ?_
  intro front a g hFront hFrame
  have hFrame : g = f.wrote front := hFrame
  subst hFrame
  exact (hNext a front hFront).behind

/- An act that writes nothing more. -/
theorem Writes.andThen_nothing
    (h : Writes f outcome r)
    (hNext :
      ∀ a bytes, r = .ok bytes →
        ∃ b, next a (f.wrote bytes) =
          some (.ok (b, f.wrote bytes))) :
    Writes f (Run.andThen outcome next) r := by
  refine Meets.andThen_map h ?_
  intro bytes a g hBytes hFrame
  have hFrame : g = f.wrote bytes := hFrame
  subst hFrame
  rcases hNext a bytes hBytes with ⟨b, hNext⟩
  exact ⟨_, hNext, rfl⟩

end Generated

end TagWire

------------------------------------------------------------
-- Statements That Write
------------------------------------------------------------

namespace TagWire

namespace Generated

variable {lib : JsonLibrary}
variable {p : Program}
variable {f : Frame}
variable {body body' : List Statement}
variable {names : List String}
variable {values : List Datum}
variable {rest : List (List Datum)}
variable {r r' : Except CodecError (List UInt8)}

/- The names of a round stand in front of the others. -/
theorem Frame.exists_bindAll_eq
    (f : Frame)
    (names : List String)
    (values : List Datum) :
    ∃ front,
      f.bindAll names values =
        { f with locals := front ++ f.locals } := by
  unfold bindAll
  induction names.zip values generalizing f with
  | nil => exact ⟨[], rfl⟩
  | cons round rest ih =>
      rcases ih (f.bind false round.1 round.2) with
        ⟨front, hFront⟩
      refine ⟨front ++ [⟨false, round.1, round.2⟩], ?_⟩
      rw [List.foldl_cons, hFront, List.append_assoc]
      rfl

/- Behind a round its names are forgotten. -/
theorem Frame.keep_bindAll
    (f : Frame)
    (names : List String)
    (values : List Datum)
    (bytes : List UInt8) :
    ((f.bindAll names values).wrote bytes).keep
        f.locals.length =
      f.wrote bytes := by
  rcases f.exists_bindAll_eq names values with ⟨front, hFront⟩
  rw [hFront]
  simp [keep, wrote]

theorem writes_block
    (h : Writes f (execAll lib p body f) r) :
    Writes f (execBlock lib p body f) r := by
  rw [execBlock]
  simp only [Run.bind_apply, Run.get_apply, Run.andThen_ok]
  refine h.andThen_nothing fun a bytes _ => ⟨(), ?_⟩
  rw [Run.modify_apply]
  exact congrArg (fun g => some (Except.ok ((), g)))
    (f.keep_bindAll [] [] bytes)

theorem writes_rounds_nil
    (f : Frame) :
    Writes f (execRounds lib p names body [] f) (.ok []) := by
  rw [execRounds]
  exact writes_nothing ()

/- A round writes, and then the others do. -/
theorem writes_rounds_cons
    (hRound :
      Writes (f.bindAll names values)
        (execAll lib p body (f.bindAll names values)) r)
    (hRest :
      ∀ bytes, r = .ok bytes →
        Writes (f.wrote bytes)
          (execRounds lib p names body rest (f.wrote bytes))
          r') :
    Writes f (execRounds lib p names body (values :: rest) f)
      (do
        let front ← r
        let back ← r'
        return front ++ back) := by
  rw [execRounds]
  simp only [Run.bind_apply, Run.get_apply, Run.andThen_ok,
    Run.set_apply]
  refine Meets.andThen hRound ?_
  intro front a g hFront hFrame
  have hFrame : g = (f.bindAll names values).wrote front :=
    hFrame
  rw [hFrame, Run.bind_apply, Run.modify_apply, Run.andThen_ok,
    f.keep_bindAll]
  exact (hRest front hFront).behind

/- There may be one round only. -/
theorem writes_round
    (hRound :
      Writes (f.bindAll names values)
        (execAll lib p body (f.bindAll names values)) r) :
    Writes f (execRounds lib p names body [values] f) r := by
  have hRounds :=
    writes_rounds_cons hRound fun bytes _ =>
      writes_rounds_nil (f.wrote bytes)
  cases r with
  | ok bytes => exact (List.append_nil bytes) ▸ hRounds
  | error e => exact hRounds

end Generated

end TagWire

------------------------------------------------------------
-- Values That Are Written
------------------------------------------------------------

namespace TagWire

namespace Generated

open Emit Value

variable {lib : JsonLibrary}
variable {p : Program}
variable {s : ResolvedSchema}
variable {f : Frame}

/- Some data is at a place. -/
structure At
    (lib : JsonLibrary)
    (p : Program)
    (place : Place)
    (d : Datum)
    (f : Frame) : Prop where
  value :
    eval lib p (valueAt place) f = some (.ok (d, f))
  borrow :
    eval lib p (borrowAt place) f = some (.ok (d, f))

/- What a name refers to is at the place of this name. -/
theorem at_referent
    {name : String}
    {d : Datum}
    (h : f.local? name = some d) :
    At lib p (.referent name) d f where
  value := by
    rw [valueAt, eval]
    exact eval_var h
  borrow := eval_var h

/- The field of a message is at its place. -/
theorem at_field
    {ident : String}
    {d d' : Datum}
    (h : f.local? "self" = some d)
    (hField : d.field? ident = some d') :
    At lib p (.field ident) d' f := by
  have hEval :
      eval lib p (.field (.var "self") ident) f =
        some (.ok (d', f)) := by
    rw [eval]
    simp [eval_var h, hField]
  refine ⟨hEval, ?_⟩
  rw [borrowAt, eval]
  exact hEval

/- A number is written as its bytes. -/
theorem writes_number
    {e : Expr}
    {kind : NumKind}
    {word : kind.Word}
    (h :
      eval lib p e f =
        some (.ok (.number kind word, f))) :
    Writes f (exec lib p (.writeNumber kind e) f)
      (.ok (LittleEndian.encode word)) := by
  rw [exec]
  simp only [Run.bind_apply, h, Run.andThen_ok, if_true]
  exact writes_item f (.number kind word)

/- A string is written with its length. -/
theorem writes_string
    {e : Expr}
    {text : String}
    (h :
      eval lib p e f = some (.ok (.string text, f))) :
    Writes f (exec lib p (.writeString e) f)
      ((encodeString text).mapError .wire) := by
  rw [exec]
  simp only [Run.bind_apply, h, Run.andThen_ok]
  exact writes_item f (.string text)

/- A scalar is written as the key or the value that it is. -/
theorem writes_key
    {place : Place}
    {key : MapKey}
    (h : At lib p place (Datum.ofKey key) f) :
    Writes f
      (exec lib p (writeStatement place (.scalar key.kind)) f)
      (encodeKey key.kind key) := by
  cases key with
  | int k word =>
      rw [encodeKey, MapKey.kind, if_pos rfl]
      exact writes_number h.value
  | string text =>
      rw [encodeKey, MapKey.kind, if_pos rfl]
      exact writes_string h.borrow

/- A value of an enum is written as its number. -/
theorem Serves.writes_enum
    (hp : Serves p s)
    {place : Place}
    {e : EnumDecl}
    {variant : String}
    (hEnum : e ∈ s.enums)
    (hVariant : variant ∈ e.variants)
    (h : At lib p place (datum s (.enum e.name variant)) f) :
    Writes f
      (exec lib p (writeStatement place (.enum e.name)) f)
      (.ok
        (LittleEndian.bytes 4 (e.variants.idxOf variant))) := by
  have hFit : e.variants.idxOf variant < 2 ^ 32 :=
    Nat.lt_of_lt_of_le (List.idxOf_lt_length_iff.mpr hVariant)
      (hp.variantsFit e hEnum)
  have hNumber :
      eval lib p (.asUint32 (valueAt place)) f =
        some
          (.ok
            (.number (.int .uint32)
              (BitVec.ofNat _ (e.variants.idxOf variant)),
              f)) := by
    rw [eval]
    simp [h.value, hp.number?_datum hEnum hVariant]
  have hBytes :
      LittleEndian.encode
          (BitVec.ofNat (8 * 4) (e.variants.idxOf variant)) =
        LittleEndian.bytes 4 (e.variants.idxOf variant) := by
    rw [LittleEndian.encode, BitVec.toNat_ofNat,
      Nat.mod_eq_of_lt hFit]
  rw [← hBytes]
  exact writes_number hNumber

/- A value is written by every transfer of its type. -/
def WritesAs
    (lib : JsonLibrary)
    (p : Program)
    (s : ResolvedSchema)
    (type : ResolvedType)
    (v : Value) : Prop :=
  ∀ {transfer : Transfer} {place : Place} {f : Frame}
    (field : String),
    Carries p type transfer →
      At lib p place (datum s v) f →
        Writes f
          (exec lib p (writeStatement place transfer) f)
          (encodeAs s field type v)

/- The body of a function ends where its statements do. -/
theorem writes_body
    {body : List Statement}
    {r : Except CodecError (List UInt8)}
    (h : Writes f (execAll lib p body f) r) :
    Writes f (runBody lib p ⟨body, .ok .unit⟩ f) r := by
  rw [runBody, Run.bind_apply]
  refine h.andThen_nothing fun a bytes _ => ⟨.unit, ?_⟩
  show eval lib p .unit _ = _
  rw [eval]
  rfl

/- A routine writes to the buffer of its caller. -/
theorem writes_routine
    {place : Place}
    {ident : String}
    {d : Datum}
    {routine : RoutineItem}
    {r : Except CodecError (List UInt8)}
    (hPlace : At lib p place d f)
    (hRoutine : p.routine? ident = some routine)
    (h :
      ∀ g, g.local? "value" = some d →
        Writes g (runBody lib p routine.writer g) r) :
    Writes f
      (exec lib p (writeStatement place (.routine ident)) f)
      r := by
  rw [writeStatement, exec]
  simp only [Run.bind_apply, hPlace.borrow, Run.andThen_ok,
    hRoutine, Run.lift_some, Run.get_apply, Run.set_apply]
  refine Meets.andThen_map (h _ rfl) ?_
  intro bytes a g _ hFrame
  have hOutput : g.output = f.output ++ bytes :=
    congrArg Frame.output hFrame
  refine ⟨((), f.wrote bytes), ?_, rfl⟩
  rw [Run.bind_apply, Run.get_apply, Run.andThen_ok,
    Frame.wrote, ← hOutput]
  rfl

/- What has elements is written with their number in front. -/
theorem writes_sized
    {d : Datum}
    {n : Nat}
    {names : List String}
    {body : List Statement}
    {rounds : List (List Datum)}
    {r : Except CodecError (List UInt8)}
    (hLen : d.len? = some n)
    (hRounds : d.rounds? names.length = some rounds)
    (hValue : f.local? "value" = some d)
    (h :
      ∀ g, Writes g (execRounds lib p names body rounds g) r) :
    Writes f
      (runBody lib p
        ⟨[
          .writeLen (.len (.var "value")),
          .each names (.var "value") body
        ],
          .ok .unit⟩ f)
      (do
        let size ← encodeSize n
        let parts ← r
        return size ++ parts) := by
  have hSize :
      eval lib p (.len (.var "value")) f =
        some (.ok (.size n, f)) := by
    rw [eval]
    simp [eval_var hValue, hLen]
  refine writes_body ?_
  rw [execAll_cons]
  refine Writes.andThen ?_ fun a bytes _ => ?_
  · rw [exec]
    simp only [Run.bind_apply, hSize, Run.andThen_ok]
    exact writes_item f (.length n)
  · have hAgain :
        eval lib p (.var "value") (f.wrote bytes) =
          some (.ok (d, f.wrote bytes)) :=
      eval_var hValue
    rw [execAll_singleton, exec]
    simp only [Run.bind_apply, hAgain, Run.andThen_ok, hRounds,
      Run.lift_some]
    exact h _

/- The elements of a list are written one after the other. -/
theorem writes_elements
    {element : ResolvedType}
    {transfer : Transfer}
    (hCarries : Carries p element transfer)
    (field : String)
    {vs : List Value}
    (h : ∀ v ∈ vs, WritesAs lib p s element v)
    (f : Frame) :
    Writes f
      (execRounds lib p ["v"]
        [writeStatement (.referent "v") transfer]
        (vs.map fun v => [datum s v]) f)
      (encodeElements s field element vs) := by
  induction vs generalizing f with
  | nil =>
      rw [encodeElements]
      exact writes_rounds_nil f
  | cons v rest ih =>
      rcases List.forall_mem_cons.mp h with ⟨hHead, hRest⟩
      rw [encodeElements, List.map_cons]
      refine writes_rounds_cons ?_ fun bytes _ => ih hRest _
      rw [execAll_singleton]
      exact hHead field hCarries (at_referent rfl)

/- A list is written with its size in front. -/
theorem writes_list
    {element : ResolvedType}
    {vs : List Value}
    (h : ∀ v ∈ vs, WritesAs lib p s element v) :
    WritesAs lib p s (.list element) (.list vs) := by
  intro transfer place f field hCarries hPlace
  cases hCarries with
  | @list _ ident transfer hRoutine hElement =>
      have hDatum :
          datum s (.list vs) = .list (vs.map (datum s)) := by
        rw [datum, datumElements_eq]
      rw [encodeAs]
      refine writes_routine hPlace hRoutine fun g hValue => ?_
      rw [hDatum] at hValue
      refine writes_sized ?_ ?_ hValue
        fun g => writes_elements hElement field h g
      · simp [Datum.len?]
      · simp [Datum.rounds?]

/- An entry is encoded before the others are. -/
theorem encodeEntries_cons
    (field : String)
    (kind : ScalarKind)
    (type : ResolvedType)
    (key : MapKey)
    (v : Value)
    (rest : List (MapKey × Value)) :
    encodeEntries s field kind type ((key, v) :: rest) =
      (do
        let front ←
          (do
            let keyBytes ← encodeKey kind key
            let bytes ← encodeAs s field type v
            return keyBytes ++ bytes)
        let back ← encodeEntries s field kind type rest
        return front ++ back) := by
  rw [encodeEntries]
  simp only [bind_assoc, pure_bind]

/- The entries of a map are written one after the other. -/
theorem writes_entries
    {key : ScalarKind}
    {type : ResolvedType}
    {transfer : Transfer}
    (hCarries : Carries p type transfer)
    (field : String)
    {entries : List (MapKey × Value)}
    (hKeys : ∀ e ∈ entries, e.1.kind = key)
    (h : ∀ e ∈ entries, WritesAs lib p s type e.2)
    (f : Frame) :
    Writes f
      (execRounds lib p ["k", "v"]
        [
          writeStatement (.referent "k") (.scalar key),
          writeStatement (.referent "v") transfer
        ]
        (entries.map fun e =>
          [Datum.ofKey e.1, datum s e.2]) f)
      (encodeEntries s field key type entries) := by
  induction entries generalizing f with
  | nil =>
      rw [encodeEntries]
      exact writes_rounds_nil f
  | cons e rest ih =>
      rcases List.forall_mem_cons.mp hKeys with
        ⟨rfl, hRestKeys⟩
      rcases List.forall_mem_cons.mp h with ⟨hHead, hRest⟩
      rw [encodeEntries_cons, List.map_cons]
      refine writes_rounds_cons ?_
        fun bytes _ => ih hRestKeys hRest _
      rw [execAll_cons]
      refine Writes.andThen (writes_key (at_referent rfl))
        fun a bytes _ => ?_
      rw [execAll_singleton]
      exact hHead field hCarries (at_referent rfl)

/- A map is written as the list of its entries. -/
theorem writes_map
    {key : ScalarKind}
    {type : ResolvedType}
    {entries : List (MapKey × Value)}
    (hKeys : ∀ e ∈ entries, e.1.kind = key)
    (h : ∀ e ∈ entries, WritesAs lib p s type e.2) :
    WritesAs lib p s (.map key type) (.map entries) := by
  intro transfer place f field hCarries hPlace
  cases hCarries with
  | @map _ _ ident transfer hRoutine hValueType =>
      have hDatum :
          datum s (.map entries) =
            .map (entries.map (Prod.map id (datum s))) := by
        rw [datum, datumEntries_eq]
      rw [encodeAs]
      refine writes_routine hPlace hRoutine fun g hValue => ?_
      rw [hDatum] at hValue
      refine writes_sized ?_ ?_ hValue
        fun g => writes_entries hValueType field hKeys h g
      · simp [Datum.len?]
      · simp [Datum.rounds?]

end Generated

end TagWire

------------------------------------------------------------
-- Fields That Are Written
------------------------------------------------------------

namespace TagWire

namespace Generated

open Emit Value

variable {lib : JsonLibrary}
variable {p : Program}
variable {s : ResolvedSchema}
variable {f : Frame}
variable {c : FieldCodec}

/- A test of whether some data is empty. -/
theorem eval_isNotEmpty
    {place : Place}
    {d : Datum}
    {isEmpty : Bool}
    (h : At lib p place d f)
    (hEmpty : d.isEmpty? = some isEmpty) :
    eval lib p (.negate (.isEmpty (valueAt place))) f =
      some (.ok (.bool !isEmpty, f)) := by
  rw [eval, Run.bind_apply, eval, Run.bind_apply, h.value]
  simp [hEmpty, Datum.negate?]

/- The test of a field that is no message finds out the zero. -/
theorem Serves.exists_isSet
    (hs : s.WellFormed)
    (hp : Serves p s)
    {v : Value}
    (hHeld : Held s c.field.type v)
    (hType : ResolvedType.isByReference c.field.type = false)
    (h : At lib p c.place (datum s v) f) :
    ∃ test,
      isSet c = .holds test ∧
        eval lib p test f =
          some (.ok (.bool !v.isZero s, f)) := by
  unfold isSet
  generalize c.field.type = type at hHeld hType
  cases hHeld with
  | @number kind word =>
      rw [datum] at h
      cases kind with
      | int k =>
          refine ⟨_, rfl, ?_⟩
          rw [eval, Run.bind_apply, h.value]
          exact congrArg
            (fun b? => Run.lift (b?.map Datum.bool) f)
            (isNotZero?_eq k word)
      | float k =>
          refine ⟨_, rfl, ?_⟩
          rw [eval, Run.bind_apply, h.value]
          exact congrArg
            (fun b? => Run.lift (b?.map Datum.bool) f)
            (isNotZeroPoint?_eq k word)
  | @string text =>
      rw [datum] at h
      exact ⟨_, rfl, eval_isNotEmpty h rfl⟩
  | @enum e variant hEnum hVariant =>
      refine ⟨_, rfl, ?_⟩
      have hNumber := hp.number?_datum hEnum hVariant
      rw [← hp.isZero_number hs hEnum hVariant, eval,
        Run.bind_apply, eval, eval, Run.bind_apply, h.value,
        Run.andThen_ok, hNumber, Run.lift_some, Run.andThen_ok]
      exact congrArg
        (fun b? => Run.lift (b?.map Datum.bool) f)
        (isNotZero?_eq .uint32 _)
  | @list element vs hElements =>
      rw [datum, datumElements_eq] at h
      refine ⟨_, rfl, ?_⟩
      rw [isZero]
      refine eval_isNotEmpty h ?_
      simp [Datum.isEmpty?]
  | @map key type entries hAscending hKeys hValues =>
      rw [datum, datumEntries_eq] at h
      refine ⟨_, rfl, ?_⟩
      rw [isZero]
      refine eval_isNotEmpty h ?_
      simp [Datum.isEmpty?]
  | message => cases hType

/- A field that is not set is left out or missed. -/
theorem writes_otherwise
    (c : FieldCodec)
    (f : Frame) :
    Writes f
      (execBlock lib p (otherwise .missingField c) f)
      (encodeUnset c.field) := by
  refine writes_block ?_
  unfold otherwise encodeUnset
  cases c.field.optional with
  | true =>
      rw [if_pos rfl, if_pos rfl, execAll_nil]
      exact writes_nothing ()
  | false =>
      rw [if_neg Bool.false_ne_true, if_neg Bool.false_ne_true,
        execAll_singleton, exec]
      exact meets_error _

/- A field that is set has its tag in front of its value. -/
theorem writes_set
    {place : Place}
    {v : Value}
    (hWrites : WritesAs lib p s c.field.type v)
    (hCarries : Carries p c.field.type c.transfer)
    (hSet : writeSet c = writeStatement place c.transfer)
    (hAt :
      At lib p place (datum s v) (f.wrote [c.field.seq])) :
    Writes f
      (execAll lib p [.writeTag c.field.seq, writeSet c] f)
      (do
        let bytes ← encodeAs s c.field.name c.field.type v
        return c.field.seq :: bytes) := by
  rw [execAll_cons, hSet]
  have hTag :
      Writes f (exec lib p (.writeTag c.field.seq) f)
        (.ok [c.field.seq]) := by
    rw [exec]
    exact writes_item f (.tag c.field.seq)
  refine hTag.andThen fun a bytes hBytes => ?_
  cases hBytes
  rw [execAll_singleton]
  exact hWrites c.field.name hCarries hAt

/- A branch is the whole of what is done about a field. -/
theorem writes_writeField
    {r : Except CodecError (List UInt8)}
    (h :
      Writes f
        (exec lib p
          (.branch (isSet c) [.writeTag c.field.seq, writeSet c]
            (otherwise .missingField c)) f) r) :
    Writes f (execAll lib p (writeField c) f) r := by
  rw [writeField, execAll_cons]
  refine h.andThen_nothing fun a bytes _ => ⟨(), ?_⟩
  rw [execAll_singleton, exec]
  rfl

/- A field that is no message is written unless it is zero. -/
theorem Serves.writes_plainField
    (hs : s.WellFormed)
    (hp : Serves p s)
    {v : Value}
    (hHeld : Held s c.field.type v)
    (hWrites :
      v.isZero s = false → WritesAs lib p s c.field.type v)
    (hCarries : Carries p c.field.type c.transfer)
    (hType : ResolvedType.isByReference c.field.type = false)
    {d : Datum}
    (hSelf : f.local? "self" = some d)
    (hField : d.field? c.ident = some (datum s v)) :
    Writes f (execAll lib p (writeField c) f)
      (encodeSet s c.field v) := by
  have hAt : At lib p (.field c.ident) (datum s v) f :=
    at_field hSelf hField
  rcases hp.exists_isSet hs hHeld hType hAt with
    ⟨test, hTest, hEval⟩
  refine writes_writeField ?_
  rw [hTest, exec, Run.bind_apply, hEval, Run.andThen_ok,
    encodeSet]
  cases hZero : v.isZero s with
  | true => exact writes_otherwise c f
  | false =>
      refine writes_block ?_
      refine writes_set (hWrites hZero) hCarries ?_
        (at_field hSelf hField)
      unfold writeSet
      split
      · next hMessage =>
          rw [hMessage] at hType
          cases hType
      · rfl

/- Whether there is a message in a field. -/
theorem isSet_of_message
    {name : String}
    (hType : c.field.type = .named (.message name)) :
    isSet c = .binds "value" (borrowAt c.place) := by
  unfold isSet
  rw [hType]

/- Where there is no message, none is written. -/
theorem writes_absentField
    {name : String}
    (hType : c.field.type = .named (.message name))
    {d : Datum}
    (hSelf : f.local? "self" = some d)
    (hField : d.field? c.ident = some .absent) :
    Writes f (execAll lib p (writeField c) f)
      (encodeUnset c.field) := by
  have hAt : At lib p c.place .absent f :=
    at_field hSelf hField
  refine writes_writeField ?_
  rw [isSet_of_message hType, exec, Run.bind_apply, hAt.borrow]
  exact writes_otherwise c f

/- A message that is there is written behind its tag. -/
theorem writes_presentField
    {name : String}
    (hType : c.field.type = .named (.message name))
    {v : Value}
    (hZero : v.isZero s = false)
    (hWrites : WritesAs lib p s c.field.type v)
    (hCarries : Carries p c.field.type c.transfer)
    {d : Datum}
    (hSelf : f.local? "self" = some d)
    (hField : d.field? c.ident = some (.present (datum s v))) :
    Writes f (execAll lib p (writeField c) f)
      (encodeSet s c.field v) := by
  have hAt : At lib p c.place (.present (datum s v)) f :=
    at_field hSelf hField
  have hWriteSet :
      writeSet c =
        writeStatement (.referent "value") c.transfer := by
    unfold writeSet
    rw [hType]
  refine writes_writeField ?_
  rw [isSet_of_message hType, exec, Run.bind_apply, hAt.borrow,
    Run.andThen_ok, encodeSet, hZero]
  exact writes_round
    (writes_set hWrites hCarries hWriteSet (at_referent rfl))

/- What is held by reference is a message. -/
theorem exists_message_of_isByReference
    {type : ResolvedType}
    (h : type.isByReference = true) :
    ∃ name, type = .named (.message name) := by
  unfold ResolvedType.isByReference at h
  split at h
  · exact ⟨_, rfl⟩
  · cases h

/- A field is written as it is encoded. -/
theorem Serves.writes_field
    (hs : s.WellFormed)
    (hp : Serves p s)
    (hClosed : s.Closed c.field.type)
    (hCarries : Carries p c.field.type c.transfer)
    {fields : List (String × Value)}
    (hFields :
      ∀ v, fields.lookup c.field.name = some v →
        Held s c.field.type v ∧ WritesAs lib p s c.field.type v)
    {d : Datum}
    (hSelf : f.local? "self" = some d)
    (hField :
      d.field? c.ident =
        some
          (fieldDatum s c.field.type
            ((fields.lookup c.field.name).map (datum s)))) :
    Writes f (execAll lib p (writeField c) f)
      (encodeField s c.field fields) := by
  rw [encodeField_eq]
  cases hRef : ResolvedType.isByReference c.field.type with
  | false =>
      cases hLookup : fields.lookup c.field.name with
      | none =>
          rcases exists_zero hs hClosed hRef with
            ⟨v, hHeld, hZero, hDatum⟩
          have hUnset :
              encodeUnset c.field = encodeSet s c.field v := by
            rw [encodeSet, hZero]
            rfl
          rw [hLookup] at hField
          show Writes f _ (encodeUnset c.field)
          rw [hUnset]
          refine hp.writes_plainField hs hHeld ?_ hCarries hRef
            hSelf (hField.trans (congrArg some hDatum))
          intro hSet
          rw [hZero] at hSet
          cases hSet
      | some v =>
          rcases hFields v hLookup with ⟨hHeld, hWrites⟩
          rw [hLookup] at hField
          refine hp.writes_plainField hs hHeld
            (fun _ => hWrites) hCarries hRef hSelf ?_
          rw [hField]
          simp [fieldDatum, hRef]
  | true =>
      rcases exists_message_of_isByReference hRef with
        ⟨name, hType⟩
      cases hLookup : fields.lookup c.field.name with
      | none =>
          rw [hLookup, hType] at hField
          exact writes_absentField hType hSelf hField
      | some v =>
          rcases hFields v hLookup with ⟨hHeld, hWrites⟩
          have hZero : v.isZero s = false := by
            rw [hType] at hHeld
            cases hHeld
            rfl
          rw [hLookup] at hField
          refine writes_presentField hType hZero hWrites
            hCarries hSelf ?_
          rw [hField]
          simp [fieldDatum, hRef]

/- The fields of a message are written in turn. -/
theorem writes_fields
    {cs : List FieldCodec}
    {fields : List (String × Value)}
    {d : Datum}
    (h :
      ∀ c ∈ cs, ∀ f : Frame, f.local? "self" = some d →
        Writes f (execAll lib p (writeField c) f)
          (encodeField s c.field fields))
    (hSelf : f.local? "self" = some d) :
    Writes f (execAll lib p (cs.flatMap writeField) f)
      (do
        let parts ←
          (cs.map FieldCodec.field).mapM
            fun f => encodeField s f fields
        return parts.flatten) := by
  induction cs generalizing f with
  | nil =>
      rw [List.flatMap_nil, execAll_nil]
      exact writes_nothing ()
  | cons c rest ih =>
      rcases List.forall_mem_cons.mp h with ⟨hHead, hRest⟩
      rw [List.flatMap_cons, execAll_append]
      have hWrites :
          Writes f
            (Run.andThen (execAll lib p (writeField c) f) fun _ =>
              execAll lib p (rest.flatMap writeField)) _ :=
        (hHead f hSelf).andThen fun a bytes _ =>
          ih (f := f.wrote bytes) hRest hSelf
      simpa [List.mapM_cons] using hWrites

end Generated

end TagWire

------------------------------------------------------------
-- Messages That Are Written
------------------------------------------------------------

namespace TagWire

namespace Generated

open Emit Value

variable {lib : JsonLibrary}
variable {p : Program}
variable {s : ResolvedSchema}
variable {f : Frame}

/- A message is written field by field, if it has fields. -/
theorem marshalInto_binaryMessage
    (m : Message TypeRef)
    (c : MessageCodec) :
    (binaryMessage m c).marshalInto =
      ⟨c.fields.flatMap writeField, .ok .unit⟩ := by
  unfold binaryMessage
  rcases c with ⟨name, _ | ⟨f, rest⟩⟩ <;> rfl

/- The function of a message writes it as it is encoded. -/
theorem Serves.writes_marshalInto
    (hs : s.WellFormed)
    (hp : Serves p s)
    {m : Message TypeRef}
    (hm : m ∈ s.messages)
    {fields : List (String × Value)}
    (hFields :
      ∀ fd ∈ m.fields, ∀ v, fields.lookup fd.name = some v →
        Held s fd.type v ∧ WritesAs lib p s fd.type v)
    (f : Frame) :
    Writes f
      (marshalInto lib p (datum s (.message m.name fields)) f)
      ((Value.message m.name fields).encode s) := by
  rcases hp.messages m hm with
    ⟨c, hMessage, hDeclared, hCarries⟩
  have hBody :
      ∀ g : Frame,
        g.local? "self" =
            some (datum s (.message m.name fields)) →
          Writes g
            (runBody lib p (binaryMessage m c).marshalInto g)
            ((Value.message m.name fields).encode s) := by
    intro g hSelf
    rw [marshalInto_binaryMessage, encode, encodeFieldsWith,
      Schema.message?_of_mem hs hm]
    refine writes_body ?_
    dsimp only
    rw [← hDeclared]
    refine writes_fields (fun fc hfc g hSelf => ?_) hSelf
    have hMem : fc.field ∈ m.fields := by
      rw [← hDeclared]
      exact List.mem_map_of_mem hfc
    refine hp.writes_field hs (hs.closed m hm _ hMem)
      (hCarries fc hfc) (hFields _ hMem) hSelf ?_
    rw [datum_message hs hm]
    exact lookup_structFields (hp.fieldIdents m hm) hMem _
  rw [datum_message hs hm] at hBody ⊢
  rw [marshalInto]
  simp only [Run.bind_apply, hMessage, Run.lift_some,
    Run.andThen_ok, Run.get_apply, Run.set_apply]
  refine Meets.andThen_map (hBody _ rfl) ?_
  intro bytes a g _ hFrame
  have hOutput : g.output = f.output ++ bytes :=
    congrArg Frame.output hFrame
  refine ⟨(a, f.wrote bytes), ?_, rfl⟩
  rw [Run.bind_apply, Run.get_apply, Run.andThen_ok,
    Run.bind_apply, Run.set_apply, Run.andThen_ok,
    Frame.wrote, ← hOutput]
  rfl

/- So does the routine that calls it. -/
theorem Serves.writes_message
    (hs : s.WellFormed)
    (hp : Serves p s)
    {m : Message TypeRef}
    (hm : m ∈ s.messages)
    {fields : List (String × Value)}
    (hFields :
      ∀ fd ∈ m.fields, ∀ v, fields.lookup fd.name = some v →
        Held s fd.type v ∧ WritesAs lib p s fd.type v) :
    WritesAs lib p s (.named (.message m.name))
      (.message m.name fields) := by
  intro transfer place f field hCarries hPlace
  cases hCarries with
  | @message _ ident hRoutine =>
      have hEncode :
          encodeAs s field (.named (.message m.name))
              (.message m.name fields) =
            (Value.message m.name fields).encode s := by
        rw [encodeAs, encode]
      rw [hEncode]
      refine writes_routine hPlace hRoutine fun g hValue => ?_
      rw [messageRoutine, runBody]
      simp only [Run.bind_apply, execAll_nil, Run.andThen_ok,
        eval_var hValue]
      exact hp.writes_marshalInto hs hm hFields g

/- Whatever is held is written as it is encoded. -/
theorem Serves.writes_transfer
    (hs : s.WellFormed)
    (hp : Serves p s)
    {type : ResolvedType}
    {v : Value}
    (h : Held s type v) :
    WritesAs lib p s type v := by
  induction h with
  | @number kind word =>
      intro transfer place f field hCarries hPlace
      cases hCarries
      rw [encodeAs, if_pos rfl]
      rw [datum] at hPlace
      exact writes_number hPlace.value
  | @string text =>
      intro transfer place f field hCarries hPlace
      cases hCarries
      rw [encodeAs, if_pos rfl]
      rw [datum] at hPlace
      exact writes_string hPlace.borrow
  | @enum e variant hEnum hVariant =>
      intro transfer place f field hCarries hPlace
      cases hCarries
      have hIndex :
          ((s.enum? e.name).bind (·.variants.idxOf? variant)) =
            some (e.variants.idxOf variant) := by
        rw [Schema.enum?_of_mem hs hEnum]
        exact idxOf?_of_getElem? (hs.variants e hEnum)
          (List.getElem?_idxOf hVariant)
      rw [encodeAs]
      simp only [hIndex]
      exact hp.writes_enum hEnum hVariant hPlace
  | list hElements ih => exact writes_list ih
  | map hAscending hKeys hValues ih =>
      exact writes_map hKeys ih
  | @message m fields hm hAscending hDeclared hValues ih =>
      refine hp.writes_message hs hm fun fd hfd v hLookup => ?_
      have hMem := Keyed.mem_of_lookup hLookup
      exact ⟨hValues _ hMem fd hfd rfl, ih _ hMem fd hfd rfl⟩

/- So is a message by its own function. -/
theorem Serves.writes_held
    (hs : s.WellFormed)
    (hp : Serves p s)
    {name : String}
    {v : Value}
    (h : Held s (.named (.message name)) v)
    (f : Frame) :
    Writes f (marshalInto lib p (datum s v) f) (v.encode s) := by
  cases h with
  | message hm hAscending hDeclared hValues =>
      refine hp.writes_marshalInto hs hm ?_ f
      intro fd hfd v hLookup
      have hMem := Keyed.mem_of_lookup hLookup
      have hHeld := hValues _ hMem fd hfd rfl
      exact ⟨hHeld, hp.writes_transfer hs hHeld⟩

/- The bytes of a message are those of its encoding. -/
theorem Serves.marshal_datum
    (hs : s.WellFormed)
    (hp : Serves p s)
    {name : String}
    {v : Value}
    (h : Held s (.named (.message name)) v) :
    Meets (p.marshal lib (datum s v)) (v.encode s)
      fun bytes bytes' => bytes' = bytes := by
  refine (hp.writes_held hs h (Frame.enter "" "" .unit)).map ?_
  intro bytes x hFrame
  exact congrArg Frame.output hFrame

end Generated

end TagWire
