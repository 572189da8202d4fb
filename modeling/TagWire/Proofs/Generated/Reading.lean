import TagWire.Proofs.Generated.Writing
import TagWire.Proofs.Value.Decoding

/-
  What generated code reads from some bytes is the data of the
  value that is decoded from them, and where there is an
  error, it is the same one.

  Main declarations:
    * `Generated.Reads`
    * `Generated.ReadsValues`
    * `Generated.Serves.reads_transfer`
    * `Generated.Serves.unmarshal_eq`
-/

------------------------------------------------------------
-- Acts That Read
------------------------------------------------------------

namespace TagWire

namespace Generated

open Value

variable {α β γ δ : Type}

/- What a reader comes to, with the place behind it. -/
def attempt
    (r : Reader CodecError β)
    (c : Cursor) :
    Except CodecError (β × Cursor) :=
  (r c).1.map fun b => (b, (r c).2)

theorem attempt_eq_ok_iff
    {r : Reader CodecError β}
    {c d : Cursor}
    {b : β} :
    attempt r c = .ok (b, d) ↔ r c = (.ok b, d) := by
  unfold attempt
  rcases r c with ⟨_ | b', d'⟩ <;> simp [Except.map]

theorem attempt_bind
    (r : Reader CodecError β)
    (after : β → Reader CodecError δ)
    (c : Cursor) :
    attempt (r >>= after) c =
      attempt r c >>= fun x => attempt (after x.1) x.2 := by
  simp only [attempt, bind]
  rcases r c with ⟨_ | b, d⟩ <;> rfl

/- An act reads what a reader does from a place. -/
def Reads
    (c : Cursor)
    (outcome : Option (Except WireError (α × Frame)))
    (r : Reader CodecError β)
    (Q : β → Cursor → α × Frame → Prop) : Prop :=
  Meets outcome (attempt r c) fun b x => Q b.1 b.2 x

variable {c : Cursor}
variable {outcome : Option (Except WireError (α × Frame))}
variable {r : Reader CodecError β}
variable {Q Q' : β → Cursor → α × Frame → Prop}

theorem reads_pure
    {x : α × Frame}
    {b : β}
    (h : Q b c x) :
    Reads c (some (.ok x)) (pure b) Q :=
  meets_ok h

theorem reads_fail
    (w : WireError) :
    Reads c (some (.error w)) (Reader.fail (.wire w)) Q :=
  meets_error w

theorem Reads.mono
    (h : Reads c outcome r Q)
    (hImp :
      ∀ b d x, r c = (.ok b, d) → Q b d x → Q' b d x) :
    Reads c outcome r Q' :=
  Meets.mono h fun b x hOk =>
    hImp b.1 b.2 x (attempt_eq_ok_iff.mp hOk)

/- What follows reads from the place behind. -/
theorem Reads.andThen
    {next : α → Run γ}
    {after : β → Reader CodecError δ}
    {Q' : δ → Cursor → γ × Frame → Prop}
    (h : Reads c outcome r Q)
    (hNext :
      ∀ b d a f, r c = (.ok b, d) → Q b d (a, f) →
        Reads d (next a f) (after b) Q') :
    Reads c (Run.andThen outcome next) (r >>= after) Q' := by
  unfold Reads
  rw [attempt_bind]
  refine Meets.andThen h fun b a f hOk hQ => ?_
  exact hNext b.1 b.2 a f (attempt_eq_ok_iff.mp hOk) hQ

/- What follows reads nothing more. -/
theorem Reads.andThen_map
    {next : α → Run γ}
    {Q' : β → Cursor → γ × Frame → Prop}
    (h : Reads c outcome r Q)
    (hNext :
      ∀ b d a f, r c = (.ok b, d) → Q b d (a, f) →
        ∃ x, next a f = some (.ok x) ∧ Q' b d x) :
    Reads c (Run.andThen outcome next) r Q' := by
  refine Meets.andThen_map h fun b a f hOk hQ => ?_
  exact hNext b.1 b.2 a f (attempt_eq_ok_iff.mp hOk) hQ

/- What is read may be made into something else. -/
theorem Reads.map
    {make : β → δ}
    {Q' : δ → Cursor → α × Frame → Prop}
    (h : Reads c outcome r Q)
    (hImp :
      ∀ b d x, r c = (.ok b, d) → Q b d x → Q' (make b) d x) :
    Reads c outcome (r >>= fun b => pure (make b)) Q' := by
  unfold Reads
  rw [attempt_bind]
  cases hAttempt : attempt r c with
  | ok b =>
      unfold Reads at h
      rw [hAttempt] at h
      rcases h with ⟨x, hOutcome, hQ⟩
      exact
        ⟨x, hOutcome,
          hImp b.1 b.2 x (attempt_eq_ok_iff.mp hAttempt) hQ⟩
  | error e =>
      unfold Reads at h
      rw [hAttempt] at h
      exact h

/- A frame with the input at another place. -/
def Frame.reached
    (f : Frame)
    (c : Cursor) :
    Frame :=
  { f with input := c }

/- The input is read as it would be outside of code. -/
theorem reads_read
    (f : Frame)
    (r : Reader WireError β) :
    Reads f.input (Run.read r f) (wire r)
      fun b d x => x = (b, f.reached d) := by
  unfold Reads attempt wire Reader.mapError Run.read
  rcases r f.input with ⟨e | b, d⟩
  · exact meets_error e
  · exact meets_ok rfl

/- A reader that moves forward leaves no more than there was. -/
theorem length_remaining_le
    {c d : Cursor}
    {b : β}
    (hForward : Reader.Forward r)
    (h : r c = (.ok b, d)) :
    d.remaining.length ≤ c.remaining.length := by
  rcases hForward c b d h with ⟨bytes, hPasses⟩
  have hLength := hPasses.length_remaining_eq
  omega

end Generated

end TagWire

------------------------------------------------------------
-- Scalars and Enums
------------------------------------------------------------

namespace TagWire

namespace Generated

open Emit Value

variable {lib : JsonLibrary}
variable {p : Program}
variable {s : ResolvedSchema}
variable {f : Frame}

/- A value of a type, and its data with the input behind it. -/
def IsRead
    (s : ResolvedSchema)
    (type : ResolvedType)
    (f : Frame)
    (v : Value)
    (d : Cursor)
    (x : Datum × Frame) : Prop :=
  Held s type v ∧ x = (datum s v, f.reached d)

theorem reads_number
    (kind : NumKind)
    (f : Frame) :
    Reads f.input (eval lib p (.readNumber kind) f)
      (wire (Reader.number kind))
      fun word d x => x = (.number kind word, f.reached d) := by
  rw [eval, Run.bind_apply]
  refine (reads_read f _).andThen_map ?_
  rintro word d _ _ _ ⟨⟩
  exact ⟨_, rfl, rfl⟩

theorem reads_string
    (f : Frame) :
    Reads f.input (eval lib p (.owned .readString) f)
      (wire Reader.string)
      fun text d x => x = (.string text, f.reached d) := by
  have hRead :
      Reads f.input (eval lib p .readString f)
        (wire Reader.string)
        fun text d x => x = (.string text, f.reached d) := by
    rw [eval, Run.bind_apply]
    refine (reads_read f _).andThen_map ?_
    rintro text d _ _ _ ⟨⟩
    exact ⟨_, rfl, rfl⟩
  rw [eval, Run.bind_apply]
  refine hRead.andThen_map ?_
  rintro text d _ _ _ ⟨⟩
  exact ⟨_, rfl, rfl⟩

theorem reads_scalar
    (kind : ScalarKind)
    (f : Frame) :
    Reads f.input (eval lib p (readExpr (.scalar kind)) f)
      (decodeScalar kind) (IsRead s (.scalar kind) f) := by
  cases kind with
  | num kind =>
      refine (reads_number kind f).map ?_
      rintro word d _ _ rfl
      exact ⟨.number, by rw [datum]⟩
  | string =>
      refine (reads_string f).map ?_
      rintro text d _ _ rfl
      exact ⟨.string, by rw [datum]⟩

/- A key is read as a scalar is. -/
theorem reads_key
    {kind : ScalarKind}
    (hKey : kind.isMapKey = true)
    (f : Frame) :
    Reads f.input (eval lib p (readExpr (.scalar kind)) f)
      (decodeKey kind)
      fun key d x =>
        key.kind = kind ∧
          x = (Datum.ofKey key, f.reached d) := by
  cases kind with
  | num kind =>
      cases kind with
      | int kind =>
          refine (reads_number (.int kind) f).map ?_
          rintro word d _ _ rfl
          exact ⟨rfl, rfl⟩
      | float kind => cases hKey
  | string =>
      refine (reads_string f).map ?_
      rintro text d _ _ rfl
      exact ⟨rfl, rfl⟩

/- The arm of a number has the variant at its place. -/
theorem lookup_arms
    (e : EnumDecl)
    (n : Nat) :
    ((variantItems e).map fun v => (v.number, v.ident)).lookup
        n =
      e.variants[n]?.map Names.typeIdent := by
  have hArms :
      (variantItems e).map (fun v => (v.number, v.ident)) =
        (numbered e).map fun x => (x.2, Names.typeIdent x.1) := by
    rw [variantItems, List.map_map]
    rfl
  have hNodup :
      (((numbered e).map fun x =>
        (x.2, Names.typeIdent x.1)).map Prod.fst).Nodup := by
    rw [List.map_map]
    show (e.variants.zipIdx.map Prod.snd).Nodup
    rw [List.zipIdx_map_snd]
    exact List.nodup_range'
  rw [hArms]
  cases hVariant : e.variants[n]? with
  | some variant =>
      refine Keyed.lookup_of_mem hNodup ?_
      have hMem : (variant, n) ∈ numbered e :=
        List.mk_mem_zipIdx_iff_getElem?.mpr hVariant
      exact List.mem_map_of_mem hMem
  | none =>
      refine Keyed.lookup_eq_none_of_not_mem fun hMem => ?_
      rw [List.map_map] at hMem
      rcases List.mem_map.mp hMem with ⟨⟨variant, i⟩, h, rfl⟩
      have hSome : e.variants[i]? = some variant :=
        List.mk_mem_zipIdx_iff_getElem?.mp h
      cases hSome.symm.trans hVariant

/- A variant is found by its number, and others are reported. -/
theorem Serves.variant?_number
    (hp : Serves p s)
    {e : EnumDecl}
    (he : e ∈ s.enums)
    (hVariants : e.variants ≠ [])
    (word : NumKind.Word (.int .uint32)) :
    p.variant? (Names.typeIdent e.name)
        (.number (.int .uint32) word) =
      some
        (match e.variants[BitVec.toNat word]? with
        | some variant =>
            .ok
              (.variant (Names.typeIdent e.name)
                (Names.typeIdent variant))
        | none =>
            .error
              (.invalidEnumValue e.name (BitVec.toNat word))) := by
  rcases List.exists_mem_of_ne_nil _ hVariants with
    ⟨first, hFirst⟩
  rw [Program.variant?, hp.enums e he, enumItem_of_mem hFirst]
  simp only [Option.bind_eq_bind, Option.bind_some, lookup_arms]
  cases e.variants[BitVec.toNat word]? <;> rfl

/- An enum is read as it is decoded. -/
theorem Serves.reads_enum
    (hs : s.WellFormed)
    (hp : Serves p s)
    {name : String}
    (hClosed : s.Closed (.named (.enum name)))
    (f : Frame) :
    Reads f.input (eval lib p (readExpr (.enum name)) f)
      (decodeEnum s name) (IsRead s (.named (.enum name)) f) := by
  rcases hClosed with ⟨e, he, rfl, hVariants⟩
  unfold decodeEnum
  rw [Schema.enum?_of_mem hs he, readExpr, eval,
    Run.bind_apply]
  refine (reads_number _ f).andThen ?_
  rintro word d _ _ _ ⟨⟩
  simp only [Run.bind_apply, hp.variant?_number he hVariants,
    Run.lift_some, Run.andThen_ok]
  cases hFound : e.variants[BitVec.toNat word]? with
  | some variant =>
      refine reads_pure ⟨.enum he ?_, ?_⟩
      · exact List.mem_of_getElem? hFound
      · rw [datum]
  | none => exact reads_fail _

end Generated

end TagWire

------------------------------------------------------------
-- Rounds
------------------------------------------------------------

namespace TagWire

namespace Generated

open Emit Value

variable {lib : JsonLibrary}
variable {p : Program}
variable {s : ResolvedSchema}
variable {β : Type}
variable {f : Frame}
variable {n : Nat}

/- A name is bound to what is read. -/
theorem reads_let
    {c : Cursor}
    {isMutable : Bool}
    {name : String}
    {e : Expr}
    {r : Reader CodecError β}
    {Q : β → Cursor → Datum × Frame → Prop}
    (h : Reads c (eval lib p e f) r Q) :
    Reads c (exec lib p (.bind isMutable name e) f) r
      fun b d x =>
        ∃ a g, Q b d (a, g) ∧
          x = ((), g.bind isMutable name a) := by
  rw [exec, Run.bind_apply]
  refine h.andThen_map fun b d a g _ hQ => ?_
  exact ⟨_, Run.modify_apply _ g, a, g, hQ, rfl⟩

/-
  Rounds read one value each. What is true of the values read
  so far and of the frame is kept up by every round.
-/
theorem reads_rounds
    {step : Reader CodecError β}
    (hForward : Reader.Forward step)
    {body : List Statement}
    {I : List β → Frame → Prop}
    (hRound :
      ∀ bs f, I bs f → f.input.remaining.length < n →
        Reads f.input (execAll lib p body f) step
          fun b d x =>
            x.2.input = d ∧
              I (bs ++ [b]) (x.2.keep f.locals.length))
    (rounds : Nat)
    {bs : List β}
    {f : Frame}
    (hBefore : I bs f)
    (hShort : f.input.remaining.length < n) :
    Reads f.input
      (execRounds lib p [] body (List.replicate rounds []) f)
      (step.times rounds)
      fun more d x => x.2.input = d ∧ I (bs ++ more) x.2 := by
  induction rounds generalizing bs f with
  | zero =>
      rw [Reader.times_zero, List.replicate_zero, execRounds]
      refine reads_pure ⟨rfl, ?_⟩
      rwa [List.append_nil]
  | succ rounds ih =>
      rw [Reader.times_succ, List.replicate_succ, execRounds]
      simp only [Run.bind_apply, Run.get_apply, Run.andThen_ok,
        Run.set_apply]
      refine (hRound bs f hBefore hShort).andThen ?_
      intro b d _ g hOk hStep
      rcases hStep with ⟨hInput, hKept⟩
      rw [Run.bind_apply, Run.modify_apply, Run.andThen_ok]
      have hInput : (g.keep f.locals.length).input = d := hInput
      have hRest :
          (g.keep f.locals.length).input.remaining.length <
            n := by
        rw [hInput]
        exact Nat.lt_of_le_of_lt (length_remaining_le hForward hOk)
          hShort
      have hOthers := ih hKept hRest
      rw [hInput] at hOthers
      refine hOthers.map fun more d' x _ hDone => ?_
      rw [List.append_assoc] at hDone
      exact hDone

/- The frame of a routine that has read some values. -/
def collecting
    (size : Nat)
    (d : Datum)
    (c : Cursor) :
    Frame where
  locals :=
    [
      ⟨true, "value", d⟩, ⟨false, "len", .size size⟩,
      ⟨false, "", .unit⟩
    ]
  self := ""
  input := c
  output := []

/- The frame in which a routine starts to read. -/
def starting
    (c : Cursor) :
    Frame :=
  { Frame.enter "" "" .unit with input := c }

/-
  What has elements is read round by round, with those that
  have been read so far under a name.
-/
theorem reads_collected
    {body : List Statement}
    {step : Reader CodecError β}
    (hForward : Reader.Forward step)
    {kept : β → Prop}
    {soFar : List β → Datum}
    {size : Nat}
    (hRound :
      ∀ bs c, c.remaining.length < n →
        Reads c
          (execAll lib p body (collecting size (soFar bs) c))
          step
          fun b d x =>
            kept b ∧
              x.2.keep 3 =
                collecting size (soFar (bs ++ [b])) d)
    {c : Cursor}
    (hShort : c.remaining.length < n) :
    Reads c
      (execRounds lib p [] body (List.replicate size [])
        (collecting size (soFar []) c))
      (step.times size)
      fun bs d x =>
        (∀ b ∈ bs, kept b) ∧
          x.2 = collecting size (soFar bs) d := by
  let I : List β → Frame → Prop := fun bs g =>
    (∀ b ∈ bs, kept b) ∧
      ∃ d, g = collecting size (soFar bs) d
  have hStep :
      ∀ bs f, I bs f → f.input.remaining.length < n →
        Reads f.input (execAll lib p body f) step
          fun b d x =>
            x.2.input = d ∧
              I (bs ++ [b]) (x.2.keep f.locals.length) := by
    rintro bs _ ⟨hBefore, c, rfl⟩ hShort
    refine (hRound bs c hShort).mono ?_
    rintro b d ⟨_, g⟩ _ ⟨hKept, hFrame⟩
    refine ⟨congrArg Frame.input hFrame, ?_, d, hFrame⟩
    exact List.forall_mem_append.mpr
      ⟨hBefore, List.forall_mem_singleton.mpr hKept⟩
  have hStart : I [] (collecting size (soFar []) c) :=
    ⟨by simp, c, rfl⟩
  refine
    (reads_rounds hForward hStep size hStart hShort).mono ?_
  rintro bs d ⟨_, _⟩ _ ⟨hInput, hKept, d', rfl⟩
  exact ⟨hKept, congrArg (collecting size (soFar bs)) hInput⟩

/- The number of elements stands in front of them. -/
theorem reads_sized
    {start : Expr}
    {body : List Statement}
    {step : Reader CodecError β}
    (hForward : Reader.Forward step)
    {kept : β → Prop}
    {soFar : List β → Datum}
    (hStart :
      ∀ f size, f.local? "len" = some (.size size) →
        eval lib p start f = some (.ok (soFar [], f)))
    (hRound :
      ∀ size bs c, c.remaining.length < n →
        Reads c
          (execAll lib p body (collecting size (soFar bs) c))
          step
          fun b d x =>
            kept b ∧
              x.2.keep 3 =
                collecting size (soFar (bs ++ [b])) d)
    {c : Cursor}
    (hShort : c.remaining.length < n) :
    Reads c
      (runBody lib p
        ⟨[
          .bind false "len" .readLen,
          .bind true "value" start,
          .times (.var "len") body
        ],
          .ok (.var "value")⟩ (starting c))
      (do
        let size ← wire Reader.length
        step.times size)
      fun bs d x =>
        (∀ b ∈ bs, kept b) ∧ x.1 = soFar bs ∧
          x.2.input = d := by
  have hLen :
      Reads c (eval lib p .readLen (starting c))
        (wire Reader.length)
        fun size d x => x = (.size size, starting d) := by
    rw [eval, Run.bind_apply]
    refine (reads_read (starting c) _).andThen_map ?_
    rintro size d _ _ _ ⟨⟩
    exact ⟨_, rfl, rfl⟩
  rw [runBody, Run.bind_apply, execAll_cons,
    Run.andThen_andThen]
  refine (reads_let hLen).andThen ?_
  rintro size d _ _ hOk ⟨_, _, ⟨⟩, ⟨⟩⟩
  have hRest : d.remaining.length < n :=
    Nat.lt_of_le_of_lt
      (length_remaining_le
        (Reader.forward_mapError Reader.forward_length) hOk)
      hShort
  have hValue :
      exec lib p (.bind true "value" start)
          ((starting d).bind false "len" (.size size)) =
        some (.ok ((), collecting size (soFar []) d)) := by
    rw [exec, Run.bind_apply, hStart _ size rfl]
    rfl
  have hSize :
      eval lib p (.var "len") (collecting size (soFar []) d) =
        some
          (.ok (.size size, collecting size (soFar []) d)) :=
    eval_var rfl
  rw [execAll_cons, hValue, Run.andThen_ok, execAll_singleton,
    exec, Run.bind_apply, hSize, Run.andThen_ok]
  refine
    (reads_collected hForward (hRound size) hRest).andThen_map ?_
  rintro bs d' _ _ _ ⟨hKept, rfl⟩
  exact ⟨_, eval_var (d := soFar bs) rfl, hKept, rfl, rfl⟩

end Generated

end TagWire

------------------------------------------------------------
-- Lists and Maps
------------------------------------------------------------

namespace TagWire

namespace Generated

open Emit Value

variable {lib : JsonLibrary}
variable {p : Program}
variable {s : ResolvedSchema}
variable {n : Nat}

/-
  Values of a type are read by every transfer of it, as long
  as fewer than so many bytes are left.
-/
def ReadsValues
    (lib : JsonLibrary)
    (p : Program)
    (s : ResolvedSchema)
    (n : Nat)
    (type : ResolvedType) : Prop :=
  ∀ {transfer : Transfer} (f : Frame),
    Carries p type transfer → f.input.remaining.length < n →
      Reads f.input (eval lib p (readExpr transfer) f)
        (decodeAs s (decode s) type) (IsRead s type f)

/- A routine reads from the buffer of its caller. -/
theorem reads_routine
    {β : Type}
    {ident : String}
    {routine : RoutineItem}
    {f : Frame}
    {r : Reader CodecError β}
    {Q : β → Cursor → Datum × Frame → Prop}
    (hRoutine : p.routine? ident = some routine)
    (h :
      Reads f.input
        (runBody lib p routine.reader (starting f.input)) r Q)
    (hInput : ∀ b d x, Q b d x → x.2.input = d) :
    Reads f.input (eval lib p (readExpr (.routine ident)) f) r
      fun b d x => ∃ g, Q b d (x.1, g) ∧ x.2 = f.reached d := by
  rw [readExpr, eval]
  simp only [Run.bind_apply, hRoutine, Run.lift_some,
    Run.andThen_ok, Run.get_apply, Run.set_apply]
  refine h.andThen_map ?_
  intro b d a g _ hQ
  obtain rfl := hInput b d (a, g) hQ
  exact ⟨(a, f.reached g.input), rfl, g, hQ, rfl⟩

/- A routine reads what has elements with their number. -/
theorem reads_sizedRoutine
    {β : Type}
    {ident : String}
    {routine : RoutineItem}
    {start : Expr}
    {body : List Statement}
    {f : Frame}
    {step : Reader CodecError β}
    {kept : β → Prop}
    (soFar : List β → Datum)
    (hRoutine : p.routine? ident = some routine)
    (hReader :
      routine.reader =
        ⟨[
          .bind false "len" .readLen,
          .bind true "value" start,
          .times (.var "len") body
        ],
          .ok (.var "value")⟩)
    (hForward : Reader.Forward step)
    (hStart :
      ∀ f size, f.local? "len" = some (.size size) →
        eval lib p start f = some (.ok (soFar [], f)))
    (hRound :
      ∀ size bs c, c.remaining.length < n →
        Reads c
          (execAll lib p body (collecting size (soFar bs) c))
          step
          fun b d x =>
            kept b ∧
              x.2.keep 3 =
                collecting size (soFar (bs ++ [b])) d)
    (hShort : f.input.remaining.length < n) :
    Reads f.input (eval lib p (readExpr (.routine ident)) f)
      (do
        let size ← wire Reader.length
        step.times size)
      fun bs d x =>
        (∀ b ∈ bs, kept b) ∧ x = (soFar bs, f.reached d) := by
  have hBody :=
    reads_sized (c := f.input) hForward hStart hRound hShort
  rw [← hReader] at hBody
  refine (reads_routine hRoutine hBody ?_).mono ?_
  · rintro bs d x ⟨_, _, hInput⟩
    exact hInput
  · rintro bs d ⟨_, _⟩ _ ⟨g, ⟨hKept, rfl, _⟩, rfl⟩
    exact ⟨hKept, rfl⟩

/- The room that is made for elements does not show. -/
theorem eval_listWithCapacity
    {f : Frame}
    {size : Nat}
    (h : f.local? "len" = some (.size size)) :
    eval lib p
        (.listWithCapacity
          (.min (.var "len") (.len .remaining))) f =
      some (.ok (.list [], f)) := by
  rw [eval, Run.bind_apply, eval, Run.bind_apply, eval_var h]
  simp only [Run.andThen_ok, eval, Run.bind_apply,
    Run.get_apply, Run.pure_apply]
  rfl

/- An element is read and put behind the others. -/
theorem ReadsValues.reads_push
    {element : ResolvedType}
    (h : ReadsValues lib p s n element)
    {transfer : Transfer}
    (hCarries : Carries p element transfer)
    (size : Nat)
    (vs : List Value)
    {c : Cursor}
    (hShort : c.remaining.length < n) :
    Reads c
      (execAll lib p [.push "value" (readExpr transfer)]
        (collecting size (.list (vs.map (datum s))) c))
      (decodeAs s (decode s) element)
      fun v d x =>
        Held s element v ∧
          x.2.keep 3 =
            collecting size
              (.list ((vs ++ [v]).map (datum s))) d := by
  rw [execAll_singleton, exec, Run.bind_apply]
  refine
    (h (collecting size _ c) hCarries hShort).andThen_map ?_
  rintro v d _ _ _ ⟨hHeld, ⟨⟩⟩
  refine ⟨_, rfl, hHeld, ?_⟩
  rw [List.map_append]
  rfl

/- Elements of a list are read one after the other. -/
theorem ReadsValues.list
    {element : ResolvedType}
    (h : ReadsValues lib p s n element) :
    ReadsValues lib p s n (.list element) := by
  intro _ f hCarries hShort
  cases hCarries with
  | list hRoutine hElement =>
      have hDecode :
          decodeAs s (decode s) (.list element) =
            (do
              let size ← wire Reader.length
              (decodeAs s (decode s) element).times size) >>=
                fun vs => pure (.list vs) := by
        rw [decodeAs, bind_assoc]
      rw [hDecode]
      refine
        (reads_sizedRoutine
          (fun vs => .list (vs.map (datum s))) hRoutine rfl
          (forward_decodeAs element)
          (fun g size hLen => eval_listWithCapacity hLen)
          (fun size vs c => h.reads_push hElement size vs)
          hShort).map ?_
      rintro vs d _ _ ⟨hHeld, rfl⟩
      refine ⟨.list hHeld, ?_⟩
      rw [datum, datumElements_eq]

/- An entry is read as a key and a value. -/
def decodePair
    (s : ResolvedSchema)
    (key : ScalarKind)
    (type : ResolvedType) :
    Reader CodecError (MapKey × Value) := do
  let k ← decodeKey key
  let v ← decodeAs s (decode s) type
  return (k, v)

/- The data of a map that some entries are bound in. -/
def mapDatum
    (s : ResolvedSchema)
    (entries : List (MapKey × Value)) :
    Datum :=
  .map (Keyed.ofList (entries.map (Prod.map id (datum s))))

theorem mapDatum_concat
    (entries : List (MapKey × Value))
    (key : MapKey)
    (v : Value) :
    (mapDatum s entries).insert? (Datum.ofKey key) (datum s v) =
      some (mapDatum s (entries ++ [(key, v)])) := by
  simp [mapDatum, Datum.insert?, Keyed.ofList]

/- What is bound under two names is put into a map. -/
theorem exec_insert
    {f : Frame}
    {key value old new : Datum}
    {locals : List Local}
    (hKey : f.local? "k" = some key)
    (hValue : f.local? "v" = some value)
    (hOld : f.local? "value" = some old)
    (hNew : old.insert? key value = some new)
    (hAssign :
      assignLocal? "value" new f.locals = some locals) :
    exec lib p (.insert "value" (.var "k") (.var "v")) f =
      some (.ok ((), { f with locals := locals })) := by
  rw [exec]
  simp only [Run.bind_apply, eval_var hKey, eval_var hValue,
    Run.andThen_ok, Run.get_apply, hOld, Run.lift_some, hNew]
  rw [Run.assign, hAssign]
  rfl

/- An entry is read and bound besides the others. -/
theorem ReadsValues.reads_insert
    {key : ScalarKind}
    (hKey : key.isMapKey = true)
    {type : ResolvedType}
    (h : ReadsValues lib p s n type)
    {transfer : Transfer}
    (hCarries : Carries p type transfer)
    (size : Nat)
    (entries : List (MapKey × Value))
    {c : Cursor}
    (hShort : c.remaining.length < n) :
    Reads c
      (execAll lib p
        [
          .bind false "k" (readExpr (.scalar key)),
          .bind false "v" (readExpr transfer),
          .insert "value" (.var "k") (.var "v")
        ]
        (collecting size (mapDatum s entries) c))
      (decodePair s key type)
      fun e d x =>
        (e.1.kind = key ∧ Held s type e.2) ∧
          x.2.keep 3 =
            collecting size (mapDatum s (entries ++ [e])) d := by
  rw [execAll_cons]
  refine
    (reads_let
      (reads_key hKey
        (collecting size (mapDatum s entries) c))).andThen ?_
  rintro k d _ _ hOk ⟨_, _, ⟨hKind, ⟨⟩⟩, ⟨⟩⟩
  have hRest : d.remaining.length < n :=
    Nat.lt_of_le_of_lt
      (length_remaining_le (forward_decodeKey key) hOk) hShort
  rw [execAll_cons]
  refine
    (reads_let
      (h
        (((collecting size (mapDatum s entries) c).reached
          d).bind false "k" (Datum.ofKey k))
        hCarries hRest)).andThen ?_
  rintro v d' _ _ _ ⟨_, _, ⟨hHeld, ⟨⟩⟩, ⟨⟩⟩
  rw [execAll_singleton,
    exec_insert rfl rfl rfl (mapDatum_concat entries k v) rfl]
  exact reads_pure ⟨⟨hKind, hHeld⟩, rfl⟩

/- Entries of a map are read one after the other. -/
theorem ReadsValues.map
    {key : ScalarKind}
    (hKey : key.isMapKey = true)
    {type : ResolvedType}
    (h : ReadsValues lib p s n type) :
    ReadsValues lib p s n (.map key type) := by
  intro _ f hCarries hShort
  cases hCarries with
  | map hRoutine hValue =>
      have hDecode :
          decodeAs s (decode s) (.map key type) =
            (do
              let size ← wire Reader.length
              (decodePair s key type).times size) >>=
                fun entries =>
                  pure (.map (Keyed.ofList entries)) := by
        rw [decodeAs, bind_assoc]
        rfl
      have hForward : Reader.Forward (decodePair s key type) :=
        Reader.forward_bind (forward_decodeKey key) fun k =>
          Reader.forward_bind (forward_decodeAs type)
            fun v => Reader.forward_pure _
      have hStart (g : Frame) :
          eval lib p .emptyMap g =
            some (.ok (mapDatum s [], g)) := by
        rw [eval]
        rfl
      rw [hDecode]
      refine
        (reads_sizedRoutine (mapDatum s) hRoutine rfl hForward
          (fun g size _ => hStart g)
          (fun size entries c =>
            h.reads_insert hKey hValue size entries)
          hShort).map ?_
      rintro entries d _ _ ⟨hHeld, rfl⟩
      refine ⟨.map ?_ ?_ ?_, ?_⟩
      · exact Keyed.ascending_ofList entries
      · exact fun e he =>
          (hHeld e (Keyed.mem_of_mem_ofList he)).1
      · exact fun e he =>
          (hHeld e (Keyed.mem_of_mem_ofList he)).2
      · rw [datum, datumEntries_eq, Keyed.map_ofList]
        rfl

end Generated

end TagWire

------------------------------------------------------------
-- Nested Messages
------------------------------------------------------------

namespace TagWire

namespace Generated

open Emit Value

variable {lib : JsonLibrary}
variable {p : Program}
variable {s : ResolvedSchema}
variable {n : Nat}

/-
  Messages are read by their functions, as long as they have
  fewer than so many bytes.
-/
def ReadsMessages
    (lib : JsonLibrary)
    (p : Program)
    (s : ResolvedSchema)
    (n : Nat) : Prop :=
  ∀ m ∈ s.messages, ∀ data : List UInt8, data.length < n →
    ∀ f,
      Meets
        (unmarshalInto lib p (Names.typeIdent m.name)
          (.bytes data) f)
        (decode s m.name data)
        fun v x =>
          Held s (.named (.message m.name)) v ∧ x.1 = datum s v

/- What is ahead is known without moving the input. -/
theorem reads_lookahead
    {α β : Type}
    {c : Cursor}
    {outcome : Option (Except WireError (α × Frame))}
    {after : List UInt8 → Reader CodecError β}
    {Q : β → Cursor → α × Frame → Prop}
    (h : Reads c outcome (after c.remaining) Q) :
    Reads c outcome (Reader.lookahead >>= after) Q :=
  h

/- What needs no reading does not move the input. -/
theorem reads_ofExcept
    {α β : Type}
    {c : Cursor}
    {outcome : Option (Except WireError (α × Frame))}
    {r : Except CodecError β}
    {Q : β → α × Frame → Prop}
    (h : Meets outcome r Q) :
    Reads c outcome (Reader.ofExcept r)
      fun b d x => d = c ∧ Q b x := by
  cases r with
  | ok b =>
      rcases h with ⟨x, hOutcome, hQ⟩
      exact ⟨x, hOutcome, rfl, hQ⟩
  | error e => exact h

/- A message ahead is read from all bytes that are left. -/
theorem ReadsMessages.reads_ahead
    (h : ReadsMessages lib p s n)
    {m : Message TypeRef}
    (hm : m ∈ s.messages)
    (f : Frame)
    (hShort : f.input.remaining.length < n) :
    Reads f.input
      (eval lib p (.unmarshal (Names.typeIdent m.name) .remaining)
        f)
      (do
        let ahead ← Reader.lookahead
        Reader.ofExcept (decode s m.name ahead))
      fun v d x =>
        d = f.input ∧
          Held s (.named (.message m.name)) v ∧
            x = (datum s v, f) := by
  have hAhead :
      eval lib p .remaining f =
        some (.ok (.bytes f.input.remaining, f)) := by
    rw [eval]
    rfl
  rw [eval]
  simp only [Run.bind_apply, hAhead, Run.andThen_ok,
    Run.get_apply]
  refine reads_lookahead (reads_ofExcept ?_)
  refine (h m hm _ hShort f).andThen_map ?_
  rintro v _ g _ ⟨hHeld, rfl⟩
  exact ⟨(datum s v, f), rfl, hHeld, rfl⟩

/- A message that was read is written to learn its size. -/
theorem Serves.eval_consumed
    (hs : s.WellFormed)
    (hp : Serves p s)
    {m : Message TypeRef}
    {v : Value}
    (hHeld : Held s (.named (.message m.name)) v)
    {f : Frame}
    (hValue : f.local? "value" = some (datum s v)) :
    Meets
      (eval lib p
        (.len (.marshal (.borrow (.var "value")))) f)
      (v.encode s)
      fun bytes x => x = (.size bytes.length, f) := by
  have hMarshal :
      Meets
        (eval lib p (.marshal (.borrow (.var "value"))) f)
        (v.encode s) fun bytes x => x = (.bytes bytes, f) := by
    rw [eval, Run.bind_apply, eval, eval_var hValue]
    simp only [Run.andThen_ok, Run.bind_apply, Run.get_apply,
      Run.set_apply]
    refine (hp.writes_held hs hHeld _).andThen_map ?_
    rintro bytes _ g _ hFrame
    obtain rfl : g = _ := hFrame
    exact ⟨_, rfl, rfl⟩
  rw [eval, Run.bind_apply]
  refine hMarshal.andThen_map ?_
  rintro bytes _ _ _ ⟨⟩
  exact ⟨_, rfl, rfl⟩

/-
  A message inside another is read from all that is left, and
  the input moves past the bytes that it is written as.
-/
theorem Serves.reads_messageRoutine
    (hs : s.WellFormed)
    (hp : Serves p s)
    (h : ReadsMessages lib p s n)
    {m : Message TypeRef}
    (hm : m ∈ s.messages)
    (ident : String)
    {c : Cursor}
    (hShort : c.remaining.length < n) :
    Reads c
      (runBody lib p (messageRoutine ident m.name).reader
        (starting c))
      (decodeNested s (decode s) m.name)
      fun v d x =>
        Held s (.named (.message m.name)) v ∧
          x.1 = datum s v ∧ x.2.input = d := by
  have hDecode :
      decodeNested s (decode s) m.name =
        (do
          let ahead ← Reader.lookahead
          Reader.ofExcept (decode s m.name ahead)) >>= fun v =>
            Reader.ofExcept (v.encode s) >>= fun bytes =>
              wire (Reader.skip bytes.length) >>=
                fun _ => pure v := by
    rw [bind_assoc]
    rfl
  rw [hDecode, messageRoutine, runBody, Run.bind_apply,
    execAll_cons, Run.andThen_andThen]
  refine
    (reads_let (h.reads_ahead hm (starting c) hShort)).andThen ?_
  rintro v d _ _ _ ⟨_, _, ⟨hHere, hHeld, ⟨⟩⟩, ⟨⟩⟩
  obtain rfl : c = d := hHere.symm
  let g := (starting c).bind false "value" (datum s v)
  have hConsumed :
      Meets
        (eval lib p
          (.len (.marshal (.borrow (.var "value")))) g)
        (v.encode s)
        fun bytes x => x = (.size bytes.length, g) :=
    hp.eval_consumed hs hHeld rfl
  rw [execAll_cons, Run.andThen_andThen]
  refine (reads_let (reads_ofExcept hConsumed)).andThen ?_
  rintro bytes d _ _ _ ⟨_, _, ⟨hHere, ⟨⟩⟩, ⟨⟩⟩
  obtain rfl : c = d := hHere.symm
  let g' := g.bind false "consumed" (.size bytes.length)
  have hSize :
      eval lib p (.var "consumed") g' =
        some (.ok (.size bytes.length, g')) :=
    eval_var rfl
  rw [execAll_singleton, exec, Run.bind_apply, hSize,
    Run.andThen_ok]
  refine (reads_read g' _).andThen ?_
  rintro _ d _ _ _ ⟨⟩
  have hValue :
      eval lib p (.var "value") (g'.reached d) =
        some (.ok (datum s v, g'.reached d)) :=
    eval_var rfl
  show Reads d (eval lib p (.var "value") (g'.reached d)) _ _
  rw [hValue]
  exact reads_pure ⟨hHeld, rfl, rfl⟩

theorem Serves.reads_message
    (hs : s.WellFormed)
    (hp : Serves p s)
    (h : ReadsMessages lib p s n)
    {m : Message TypeRef}
    (hm : m ∈ s.messages) :
    ReadsValues lib p s n (.named (.message m.name)) := by
  intro _ f hCarries hShort
  cases hCarries with
  | @message _ ident hRoutine =>
      have hBody :=
        hp.reads_messageRoutine hs h hm ident hShort
      refine (reads_routine hRoutine hBody ?_).mono ?_
      · rintro v d x ⟨_, _, hInput⟩
        exact hInput
      · rintro v d ⟨_, _⟩ _ ⟨g, ⟨hHeld, rfl, _⟩, rfl⟩
        exact ⟨hHeld, rfl⟩

/- Values of all types are read, given that messages are. -/
theorem Serves.reads_values
    (hs : s.WellFormed)
    (hp : Serves p s)
    (h : ReadsMessages lib p s n)
    {type : ResolvedType}
    (hClosed : s.Closed type) :
    ReadsValues lib p s n type := by
  induction type with
  | scalar kind =>
      intro _ f hCarries _
      cases hCarries
      exact reads_scalar kind f
  | named reference =>
      cases reference with
      | enum name =>
          intro _ f hCarries _
          cases hCarries
          exact hp.reads_enum hs hClosed f
      | message name =>
          rcases hClosed with ⟨m, hm, rfl⟩
          exact hp.reads_message hs h hm
  | list element ih => exact ReadsValues.list (ih hClosed)
  | map key value ih =>
      exact ReadsValues.map hClosed.1 (ih hClosed.2)

end Generated

end TagWire

------------------------------------------------------------
-- Fields
------------------------------------------------------------

namespace TagWire

namespace Generated

open Emit Value

variable {lib : JsonLibrary}
variable {p : Program}
variable {s : ResolvedSchema}
variable {n : Nat}

/-
  Where the function of a message is: the type, the bytes that
  it is given, and whether tags are read after the first one.
-/
structure FieldsRead where
  type : String
  data : List UInt8
  goesOn : Bool

namespace FieldsRead

/- The frame with the data so far and the tag ahead. -/
def frame
    (r : FieldsRead)
    (x : Datum)
    (seq? : Option UInt8)
    (c : Cursor) :
    Frame where
  locals :=
    [
      ⟨r.goesOn, "seq", .tag seq?⟩, ⟨true, "x", x⟩,
      ⟨false, "data", .bytes r.data⟩
    ]
  self := r.type
  input := c
  output := []

end FieldsRead

variable {r : FieldsRead}
variable {declared : List (Field TypeRef)}
variable {c : FieldCodec}

/- The value of a field is read into what the field has. -/
theorem ReadsValues.reads_set
    (h : ReadsValues lib p s n c.field.type)
    (hCarries : Carries p c.field.type c.transfer)
    {f : Frame}
    (hShort : f.input.remaining.length < n) :
    Reads f.input (eval lib p (readSet c) f)
      (decodeAs s (decode s) c.field.type)
      fun v d x =>
        Held s c.field.type v ∧
          x =
            (fieldDatum s c.field.type (some (datum s v)),
              f.reached d) := by
  have hRead := h f hCarries hShort
  unfold readSet fieldDatum
  split
  · next hType =>
      rw [eval, Run.bind_apply, eval]
      refine hRead.andThen_map ?_
      rintro v d _ _ _ ⟨hHeld, ⟨⟩⟩
      rw [hType] at hHeld ⊢
      exact ⟨_, rfl, hHeld, rfl⟩
  · next hType =>
      refine hRead.mono ?_
      rintro v d _ _ ⟨hHeld, rfl⟩
      have hPlain :
          ResolvedType.isByReference c.field.type = false := by
        generalize c.field.type = type at hType
        match type with
        | .named (.message name) => exact absurd rfl (hType name)
        | .named (.enum _) | .scalar _ | .list _ | .map _ _ =>
            rfl
      rw [hPlain]
      exact ⟨hHeld, rfl⟩

/- The value of a field is put into the field. -/
theorem ReadsValues.reads_assign
    (h : ReadsValues lib p s n c.field.type)
    (hCarries : Carries p c.field.type c.transfer)
    (hIdents :
      (declared.map fun f => Names.fieldIdent f.name).Nodup)
    (hDeclared : c.field ∈ declared)
    (get : String → Option Datum)
    (seq? : Option UInt8)
    {d : Cursor}
    (hShort : d.remaining.length < n) :
    Reads d
      (exec lib p (.assignField "x" c.ident (readSet c))
        (r.frame (.struct r.type (structFields s declared get))
          seq? d))
      (decodeAs s (decode s) c.field.type)
      fun v d' x =>
        Held s c.field.type v ∧
          x.2 =
            r.frame
              (.struct r.type
                (structFields s declared
                  (Function.update get c.field.name
                    (some (datum s v)))))
              seq? d' := by
  let x := Datum.struct r.type (structFields s declared get)
  let f := r.frame x seq? d
  rw [exec, Run.bind_apply]
  refine (h.reads_set (f := f) hCarries hShort).andThen_map ?_
  rintro v d' _ _ _ ⟨hHeld, ⟨⟩⟩
  let x' :=
    Datum.struct r.type
      (structFields s declared
        (Function.update get c.field.name (some (datum s v))))
  have hSet :
      x.setField? c.ident
          (fieldDatum s c.field.type (some (datum s v))) =
        some x' :=
    setField?_structFields hIdents hDeclared r.type get
      (datum s v)
  have hLocal : (f.reached d').local? "x" = some x := rfl
  refine ⟨((), r.frame x' seq? d'), ?_, hHeld, rfl⟩
  rw [Run.bind_apply, Run.get_apply, Run.andThen_ok,
    Run.bind_apply, hLocal, Run.lift_some, Run.andThen_ok,
    Run.bind_apply, hSet, Run.lift_some, Run.andThen_ok]
  rfl

/- What a message has after some more values were found. -/
def taking
    (s : ResolvedSchema)
    (get : String → Option Datum)
    (found : List (String × Value)) :
    String → Option Datum :=
  fun name => ((found.lookup name).map (datum s)).or (get name)

/- The fields that are found are declared and told apart. -/
structure Found
    (s : ResolvedSchema)
    (cs : List FieldCodec)
    (found : List (String × Value)) : Prop where
  held :
    ∀ e ∈ found, ∀ c ∈ cs,
      c.field.name = e.1 → Held s c.field.type e.2
  names :
    (found.map Prod.fst).Sublist
      (cs.map fun c => c.field.name)

theorem found_nil
    (cs : List FieldCodec) :
    Found s cs [] where
  held := by simp
  names := List.nil_sublist _

/- Where a name is not found, only others may be found. -/
theorem Found.not_mem
    {rest : List FieldCodec}
    {found : List (String × Value)}
    (h : Found s rest found)
    (hNames :
      ((c :: rest).map fun c => c.field.name).Nodup) :
    c.field.name ∉ found.map Prod.fst := by
  intro hMem
  exact (List.nodup_cons.mp hNames).1 (h.names.subset hMem)

/- A field may be left out. -/
theorem Found.of_rest
    {rest : List FieldCodec}
    {found : List (String × Value)}
    (h : Found s rest found)
    (hNames :
      ((c :: rest).map fun c => c.field.name).Nodup) :
    Found s (c :: rest) found where
  held e he := by
    refine List.forall_mem_cons.mpr ⟨?_, h.held e he⟩
    intro hName
    have hMem : e.1 ∈ found.map Prod.fst :=
      List.mem_map_of_mem he
    rw [← hName] at hMem
    exact absurd hMem (h.not_mem hNames)
  names := h.names.cons _

/- A field may be found in front of the others. -/
theorem Found.cons
    {rest : List FieldCodec}
    {found : List (String × Value)}
    {v : Value}
    (h : Found s rest found)
    (hNames :
      ((c :: rest).map fun c => c.field.name).Nodup)
    (hHeld : Held s c.field.type v) :
    Found s (c :: rest) ((c.field.name, v) :: found) where
  held := by
    refine List.forall_mem_cons.mpr
      ⟨?_, (h.of_rest hNames).held⟩
    refine List.forall_mem_cons.mpr ⟨fun _ => hHeld, ?_⟩
    intro c' hc' hName
    have hMem : c'.field.name ∈ rest.map fun c => c.field.name :=
      List.mem_map_of_mem hc'
    rw [hName] at hMem
    exact absurd hMem (List.nodup_cons.mp hNames).1
  names := h.names.cons_cons _

theorem taking_nil
    (get : String → Option Datum) :
    taking s get [] = get := by
  funext name
  rfl

/- What was found first is there before the others are. -/
theorem taking_cons
    {get : String → Option Datum}
    {name : String}
    {found : List (String × Value)}
    (hNew : name ∉ found.map Prod.fst)
    (v : Value) :
    taking s (Function.update get name (some (datum s v)))
        found =
      taking s get ((name, v) :: found) := by
  funext name'
  unfold taking
  rw [List.lookup_cons]
  cases hSame : name' == name with
  | true =>
      obtain rfl := eq_of_beq hSame
      rw [Keyed.lookup_eq_none_of_not_mem hNew,
        Function.update_self]
      rfl
  | false =>
      rw [Function.update_of_ne (ne_of_beq_false hSame)]

/- A tag is always read, if only that there is none. -/
theorem reads_skipTag
    {α β : Type}
    {d : Cursor}
    {outcome : Option (Except WireError (α × Frame))}
    {after : Option UInt8 → Reader CodecError β}
    {Q : β → Cursor → α × Frame → Prop}
    (h : ∀ next d', Reads d' outcome (after next) Q) :
    Reads d outcome (Reader.tag >>= after) Q := by
  rcases Reader.tag_eq (ε := CodecError) d with ⟨d', hTag⟩
  unfold Reads attempt
  rw [Reader.bind_of_ok hTag]
  exact h _ d'

/- A field is a branch, with an empty line behind it. -/
theorem execAll_readField
    (isLast : Bool)
    (c : FieldCodec)
    (back : List Statement)
    (f : Frame) :
    execAll lib p (readField isLast c ++ back) f =
      Run.andThen
        (exec lib p
          (.branch (.holds (.isTag (.var "seq") c.field.seq))
            (.assignField "x" c.ident (readSet c) ::
              if isLast then [] else [.assign "seq" .readTag])
            (otherwise .fieldNotFound c)) f)
        fun _ => execAll lib p back := by
  rw [readField, List.cons_append, execAll_cons]
  refine congrArg (Run.andThen _) ?_
  funext _ g
  rw [List.singleton_append, execAll_cons, exec]
  rfl

/- The branch depends on the tag that was read last. -/
theorem exec_tagBranch
    {f : Frame}
    {seq? : Option UInt8}
    (h : f.local? "seq" = some (.tag seq?))
    (seq : UInt8)
    (body otherwise : List Statement) :
    exec lib p
        (.branch (.holds (.isTag (.var "seq") seq)) body
          otherwise) f =
      if seq? = some seq then
        execBlock lib p body f
      else
        execBlock lib p otherwise f := by
  have hTest :
      eval lib p (.isTag (.var "seq") seq) f =
        some (.ok (.bool (seq? = some seq), f)) := by
    rw [eval, Run.bind_apply, eval_var h]
    rfl
  rw [exec, Run.bind_apply, hTest]
  by_cases hSame : seq? = some seq
  · rw [if_pos hSame, decide_eq_true hSame]
    rfl
  · rw [if_neg hSame, decide_eq_false hSame]
    rfl

/- A tag is read alike wherever errors are put. -/
theorem wire_tag :
    wire Reader.tag = (Reader.tag : Reader CodecError _) := by
  funext c
  unfold wire Reader.mapError Reader.tag
  rcases Reader.byte c with ⟨_ | _, _⟩ <;> rfl

/- The next tag is put in place of the last one. -/
theorem reads_assignTag
    (hGoesOn : r.goesOn = true)
    (x : Datum)
    (seq? : Option UInt8)
    (d : Cursor) :
    Reads d
      (exec lib p (.assign "seq" .readTag) (r.frame x seq? d))
      Reader.tag
      fun next d' y => y = ((), r.frame x next d') := by
  have hAssign (next : Option UInt8) (d' : Cursor) :
      Run.assign "seq" (.tag next)
          ((r.frame x seq? d).reached d') =
        some (.ok ((), r.frame x next d')) := by
    unfold Run.assign FieldsRead.frame
    rw [hGoesOn]
    rfl
  rw [← wire_tag, exec, Run.bind_apply, eval, Run.bind_apply,
    Run.andThen_andThen]
  refine (reads_read (r.frame x seq? d) _).andThen_map ?_
  rintro next d' _ _ _ ⟨⟩
  exact ⟨_, hAssign next d', rfl⟩

/- The last field is read, and no tag behind it. -/
theorem ReadsValues.reads_lastField
    (h : ReadsValues lib p s n c.field.type)
    (hCarries : Carries p c.field.type c.transfer)
    (hIdents :
      (declared.map fun f => Names.fieldIdent f.name).Nodup)
    (hDeclared : c.field ∈ declared)
    (get : String → Option Datum)
    (seq? : Option UInt8)
    {d : Cursor}
    (hShort : d.remaining.length < n) :
    Reads d
      (execBlock lib p
        [.assignField "x" c.ident (readSet c)]
        (r.frame (.struct r.type (structFields s declared get))
          seq? d))
      (decodeAs s (decode s) c.field.type)
      fun v d' x =>
        Held s c.field.type v ∧
          x.2 =
            r.frame
              (.struct r.type
                (structFields s declared
                  (Function.update get c.field.name
                    (some (datum s v)))))
              seq? d' := by
  have hAssign :=
    h.reads_assign (r := r) hCarries hIdents hDeclared get seq?
      hShort
  rw [execBlock]
  simp only [Run.bind_apply, Run.get_apply, Run.andThen_ok,
    execAll_singleton]
  refine hAssign.andThen_map ?_
  rintro v d' _ _ _ ⟨hHeld, rfl⟩
  exact ⟨_, Run.modify_apply _ _, hHeld, rfl⟩

/- A field is read, and the tag behind it. -/
theorem ReadsValues.reads_nextField
    (h : ReadsValues lib p s n c.field.type)
    (hCarries : Carries p c.field.type c.transfer)
    (hIdents :
      (declared.map fun f => Names.fieldIdent f.name).Nodup)
    (hDeclared : c.field ∈ declared)
    (hGoesOn : r.goesOn = true)
    (get : String → Option Datum)
    (seq? : Option UInt8)
    {d : Cursor}
    (hShort : d.remaining.length < n) :
    Reads d
      (execBlock lib p
        [
          .assignField "x" c.ident (readSet c),
          .assign "seq" .readTag
        ]
        (r.frame (.struct r.type (structFields s declared get))
          seq? d))
      (do
        let v ← decodeAs s (decode s) c.field.type
        let next ← Reader.tag
        return (v, next))
      fun y d' x =>
        Held s c.field.type y.1 ∧
          x.2 =
            r.frame
              (.struct r.type
                (structFields s declared
                  (Function.update get c.field.name
                    (some (datum s y.1)))))
              y.2 d' := by
  have hAssign :=
    h.reads_assign (r := r) hCarries hIdents hDeclared get seq?
      hShort
  rw [execBlock]
  simp only [Run.bind_apply, Run.get_apply, Run.andThen_ok,
    execAll_cons, Run.andThen_andThen]
  refine hAssign.andThen ?_
  rintro v d' _ _ _ ⟨hHeld, rfl⟩
  refine
    Reads.map
      ((reads_assignTag hGoesOn _ seq? d').andThen_map ?_)
      fun next d'' x _ hQ => ⟨hHeld, hQ⟩
  rintro next d'' _ _ _ ⟨⟩
  rw [execAll_nil, Run.andThen_ok]
  exact ⟨_, Run.modify_apply _ _, rfl⟩

/-
  Some fields are read, whatever was found before them. Those
  that are found are put into the data.
-/
def ReadsFields
    (lib : JsonLibrary)
    (p : Program)
    (s : ResolvedSchema)
    (n : Nat)
    (r : FieldsRead)
    (declared : List (Field TypeRef))
    (cs : List FieldCodec) : Prop :=
  ∀ (get : String → Option Datum) (seq? : Option UInt8)
    {d : Cursor}, (seq? ≠ none → d.remaining.length < n) →
      Reads d
        (execAll lib p (readFields cs)
          (r.frame
            (.struct r.type (structFields s declared get)) seq?
            d))
        (decodeFields s (decode s) (cs.map FieldCodec.field)
          seq?)
        fun found _ x =>
          Found s cs found ∧
            x.2.local? "x" =
              some
                (.struct r.type
                  (structFields s declared
                    (taking s get found)))

theorem readsFields_nil :
    ReadsFields lib p s n r declared [] := by
  intro get seq? d _
  rw [readFields, execAll_nil]
  refine reads_pure ⟨found_nil [], ?_⟩
  rw [taking_nil]
  rfl

/- A field that is not ahead is left out or missed. -/
theorem ReadsFields.of_unset
    {rest : List FieldCodec}
    (h : ReadsFields lib p s n r declared rest)
    (hNames :
      ((c :: rest).map fun c => c.field.name).Nodup)
    (get : String → Option Datum)
    {seq? : Option UInt8}
    (hTag : seq? ≠ some c.field.seq)
    {d : Cursor}
    (hShort : seq? ≠ none → d.remaining.length < n) :
    Reads d
      (execAll lib p (readFields (c :: rest))
        (r.frame (.struct r.type (structFields s declared get))
          seq? d))
      (decodeFields s (decode s)
        ((c :: rest).map FieldCodec.field) seq?)
      fun found _ x =>
        Found s (c :: rest) found ∧
          x.2.local? "x" =
            some
              (.struct r.type
                (structFields s declared
                  (taking s get found))) := by
  rw [readFields, execAll_readField, exec_tagBranch rfl,
    List.map_cons, decodeFields, if_neg hTag, if_neg hTag,
    otherwise, execBlock]
  cases c.field.optional with
  | true =>
      simp only [if_true, Run.bind_apply, Run.get_apply,
        Run.andThen_ok, execAll_nil, Run.modify_apply]
      refine (h get seq? hShort).mono ?_
      rintro found d' x _ ⟨hFound, hLocal⟩
      exact ⟨hFound.of_rest hNames, hLocal⟩
  | false =>
      simp only [Bool.false_eq_true, if_false, Run.bind_apply,
        Run.get_apply, Run.andThen_ok, execAll_singleton, exec,
        Run.ofExcept_error, Run.andThen_error]
      exact reads_fail _

/- The last field may be ahead. -/
theorem reads_fields_singleton
    (h : ReadsValues lib p s n c.field.type)
    (hCarries : Carries p c.field.type c.transfer)
    (hIdents :
      (declared.map fun f => Names.fieldIdent f.name).Nodup)
    (hDeclared : c.field ∈ declared)
    (get : String → Option Datum)
    {d : Cursor}
    (hShort : d.remaining.length < n) :
    Reads d
      (execAll lib p (readFields [c])
        (r.frame (.struct r.type (structFields s declared get))
          (some c.field.seq) d))
      (decodeFields s (decode s) [c.field] (some c.field.seq))
      fun found _ x =>
        Found s [c] found ∧
          x.2.local? "x" =
            some
              (.struct r.type
                (structFields s declared
                  (taking s get found))) := by
  rw [readFields, execAll_readField, exec_tagBranch rfl,
    decodeFields, if_pos rfl, if_pos rfl]
  refine
    (h.reads_lastField hCarries hIdents hDeclared get _
      hShort).andThen ?_
  rintro v d' _ _ _ ⟨hHeld, rfl⟩
  refine reads_skipTag fun next d'' => ?_
  have hFound :=
    (found_nil (s := s) []).cons (by simp) hHeld
  rw [readFields, execAll_nil]
  refine reads_pure ⟨hFound, ?_⟩
  rw [← taking_cons List.not_mem_nil, taking_nil]
  rfl

/- A field that is ahead is followed by the others. -/
theorem ReadsFields.of_set
    {c' : FieldCodec}
    {rest : List FieldCodec}
    (h : ReadsFields lib p s n r declared (c' :: rest))
    (hValues : ReadsValues lib p s n c.field.type)
    (hCarries : Carries p c.field.type c.transfer)
    (hIdents :
      (declared.map fun f => Names.fieldIdent f.name).Nodup)
    (hDeclared : c.field ∈ declared)
    (hNames :
      ((c :: c' :: rest).map fun c => c.field.name).Nodup)
    (hGoesOn : r.goesOn = true)
    (get : String → Option Datum)
    {d : Cursor}
    (hShort : d.remaining.length < n) :
    Reads d
      (execAll lib p (readFields (c :: c' :: rest))
        (r.frame (.struct r.type (structFields s declared get))
          (some c.field.seq) d))
      (decodeFields s (decode s)
        ((c :: c' :: rest).map FieldCodec.field)
        (some c.field.seq))
      fun found _ x =>
        Found s (c :: c' :: rest) found ∧
          x.2.local? "x" =
            some
              (.struct r.type
                (structFields s declared
                  (taking s get found))) := by
  have hDecode :
      decodeFields s (decode s)
          ((c :: c' :: rest).map FieldCodec.field)
          (some c.field.seq) =
        (do
          let v ← decodeAs s (decode s) c.field.type
          let next ← Reader.tag
          return (v, next)) >>= fun y =>
            decodeFields s (decode s)
                ((c' :: rest).map FieldCodec.field) y.2 >>=
              fun others =>
                pure ((c.field.name, y.1) :: others) := by
    rw [List.map_cons, decodeFields, if_pos rfl]
    simp only [bind_assoc, pure_bind]
  have hForward :
      Reader.Forward
        (do
          let v ← decodeAs s (decode s) c.field.type
          let next ← Reader.tag
          return (v, next)) :=
    Reader.forward_bind (forward_decodeAs _) fun v =>
      Reader.forward_bind Reader.forward_tag fun next =>
        Reader.forward_pure _
  rw [readFields, execAll_readField, exec_tagBranch rfl,
    if_pos rfl, hDecode]
  refine
    (hValues.reads_nextField hCarries hIdents hDeclared hGoesOn
      get _ hShort).andThen ?_
  rintro ⟨v, next⟩ d' _ _ hOk ⟨hHeld, rfl⟩
  have hRest : d'.remaining.length < n :=
    Nat.lt_of_le_of_lt (length_remaining_le hForward hOk) hShort
  refine (h _ next fun _ => hRest).map ?_
  rintro found d'' x _ ⟨hFound, hLocal⟩
  refine ⟨hFound.cons hNames hHeld, ?_⟩
  rw [← taking_cons (hFound.not_mem hNames)]
  exact hLocal

/- The fields of a message are read in turn. -/
theorem readsFields
    {cs : List FieldCodec}
    (hIdents :
      (declared.map fun f => Names.fieldIdent f.name).Nodup)
    (hFields :
      ∀ c ∈ cs, c.field ∈ declared ∧
        Carries p c.field.type c.transfer ∧
          ReadsValues lib p s n c.field.type)
    (hNames : (cs.map fun c => c.field.name).Nodup)
    (hGoesOn : 1 < cs.length → r.goesOn = true) :
    ReadsFields lib p s n r declared cs := by
  induction cs with
  | nil => exact readsFields_nil
  | cons c rest ih =>
      intro get seq? d hShort
      rcases List.forall_mem_cons.mp hFields with
        ⟨⟨hDeclared, hCarries, hValues⟩, hOthers⟩
      have ih := ih hOthers (List.nodup_cons.mp hNames).2
        (fun h => hGoesOn (Nat.lt_succ_of_lt h))
      by_cases hTag : seq? = some c.field.seq
      · have hShort := hShort (by simp [hTag])
        rw [hTag]
        cases rest with
        | nil =>
            exact reads_fields_singleton hValues hCarries
              hIdents hDeclared get hShort
        | cons c' rest =>
            exact ih.of_set hValues hCarries hIdents hDeclared
              hNames (hGoesOn (by simp)) get hShort
      · exact ih.of_unset hNames get hTag hShort

end Generated

end TagWire

------------------------------------------------------------
-- Messages
------------------------------------------------------------

namespace TagWire

namespace Generated

open Emit Value

variable {lib : JsonLibrary}
variable {p : Program}
variable {s : ResolvedSchema}

/- The default of a field is what the field has if unset. -/
theorem Serves.default?_field
    (hp : Serves p s)
    (hs : s.WellFormed)
    {type : ResolvedType}
    (hClosed : s.Closed type) :
    p.default? (fieldCodeType type) =
      some (zeroDatum s type) := by
  match type with
  | .scalar (.num kind) => rfl
  | .scalar .string => rfl
  | .list element => rfl
  | .map key value => rfl
  | .named (.message name) => rfl
  | .named (.enum name) =>
      rcases hClosed with ⟨e, he, rfl, hVariants⟩
      rcases List.exists_cons_of_ne_nil hVariants with
        ⟨first, others, hFirst⟩
      have hMem : first ∈ e.variants := by
        rw [hFirst]
        exact List.mem_cons_self
      have hDefault :
          Program.defaultVariant? (enumItem .binary e) =
            some
              (.variant (Names.typeIdent e.name)
                (Names.typeIdent first)) := by
        rw [enumItem_of_mem hMem, Program.defaultVariant?]
        simp [variantItems, numbered, hFirst]
      rw [zeroDatum, Schema.enum?_of_mem hs he]
      show (p.enum? (Names.typeIdent e.name)).bind _ = _
      rw [hp.enums e he, Option.bind_some, hDefault]
      simp [hFirst]

/- The defaults of fields are what unset fields are read as. -/
theorem Serves.mapM_default?
    (hp : Serves p s)
    (hs : s.WellFormed)
    {declared : List (Field TypeRef)}
    (hClosed : ∀ f ∈ declared, s.Closed f.type) :
    (declared.map fun f =>
      (Names.fieldIdent f.name, fieldCodeType f.type)).mapM
        (fun (name, type) =>
          (p.default? type).map fun d => (name, d)) =
      some (structFields s declared fun _ => none) := by
  induction declared with
  | nil => rfl
  | cons f rest ih =>
      rcases List.forall_mem_cons.mp hClosed with
        ⟨hFirst, hRest⟩
      rw [List.map_cons, List.mapM_cons, ih hRest]
      show ((p.default? (fieldCodeType f.type)).map _ >>= _) = _
      rw [hp.default?_field hs hFirst]
      rfl

/- The default of a message has all of its fields unset. -/
theorem Serves.defaultStruct?_message
    (hp : Serves p s)
    (hs : s.WellFormed)
    {m : Message TypeRef}
    (hm : m ∈ s.messages) :
    p.defaultStruct? (Names.typeIdent m.name) =
      some
        (.struct (Names.typeIdent m.name)
          (structFields s m.fields fun _ => none)) := by
  rcases hp.messages m hm with ⟨c, hMessage, _, _⟩
  have hData :
      (binaryMessage m c).data = structItem .binary m := by
    unfold binaryMessage
    split <;> rfl
  rw [Program.defaultStruct?, hMessage]
  show (if _ then _ else _) = _
  rw [hData, if_pos]
  · show (List.mapM _ (m.fields.map _) >>= _) = _
    rw [hp.mapM_default? hs (hs.closed m hm)]
    rfl
  · simp [structItem, attributesOf, structTraits]

/- The fields that are found make up a message. -/
theorem Found.held_message
    {cs : List FieldCodec}
    {found : List (String × Value)}
    (h : Found s cs found)
    {m : Message TypeRef}
    (hm : m ∈ s.messages)
    (hFields : cs.map FieldCodec.field = m.fields) :
    Held s (.named (.message m.name))
      (.message m.name (Keyed.ofList found)) := by
  have hNames :
      (cs.map fun c => c.field.name) =
        m.fields.map Field.name := by
    rw [← hFields, List.map_map]
    rfl
  refine .message hm (Keyed.ascending_ofList found) ?_ ?_
  · intro e he
    rw [← hNames]
    exact h.names.subset
      (List.mem_map_of_mem (Keyed.mem_of_mem_ofList he))
  · intro e he f hf hName
    rw [← hFields] at hf
    rcases List.mem_map.mp hf with ⟨c, hc, rfl⟩
    exact h.held e (Keyed.mem_of_mem_ofList he) c hc hName

/- The data of this message is what was put into the fields. -/
theorem Found.datum_message
    (hs : s.WellFormed)
    {cs : List FieldCodec}
    {found : List (String × Value)}
    (h : Found s cs found)
    {m : Message TypeRef}
    (hm : m ∈ s.messages)
    (hFields : cs.map FieldCodec.field = m.fields) :
    datum s (.message m.name (Keyed.ofList found)) =
      .struct (Names.typeIdent m.name)
        (structFields s m.fields
          (taking s (fun _ => none) found)) := by
  have hNames :
      (cs.map fun c => c.field.name) =
        m.fields.map Field.name := by
    rw [← hFields, List.map_map]
    rfl
  have hNodup : (found.map Prod.fst).Nodup := by
    refine h.names.nodup ?_
    rw [hNames]
    exact hs.fieldNames m hm
  have hGet :
      (fun name =>
          ((Keyed.ofList found).lookup name).map (datum s)) =
        taking s (fun _ => none) found := by
    funext name
    rw [Keyed.lookup_ofList_of_nodup hNodup, taking,
      Option.or_none]
  rw [Generated.datum_message hs hm, hGet]

/- A message is decoded from what is found in its body. -/
theorem decode_eq_attempt
    {name : String}
    {m : Message TypeRef}
    (hMessage : s.message? name = some m)
    (data : List UInt8) :
    decode s name data =
      (attempt (decodeBody s (decode s) m.fields)
          (Cursor.start data)).map
        fun y => .message m.name (Keyed.ofList y.1) := by
  rw [decode_eq, decodeWith_of_message? hMessage, Reader.eval,
    attempt]
  rcases decodeBody s (decode s) m.fields (Cursor.start data)
    with ⟨_ | found, d⟩ <;> rfl

/- The body of a function without fields. -/
theorem Serves.reads_noFields
    (hs : s.WellFormed)
    (hp : Serves p s)
    {m : Message TypeRef}
    (hm : m ∈ s.messages)
    (hNone : m.fields = [])
    {f : Frame}
    (hSelf : f.self = Names.typeIdent m.name)
    (d : Cursor) :
    Reads d (runBody lib p ⟨[], .ok .selfDefault⟩ f)
      (decodeBody s (decode s) m.fields)
      fun found _ x =>
        Found s [] found ∧
          x.1 =
            .struct (Names.typeIdent m.name)
              (structFields s m.fields
                (taking s (fun _ => none) found)) := by
  have hRun :
      runBody lib p ⟨[], .ok .selfDefault⟩ f =
        some
          (.ok
            (.struct (Names.typeIdent m.name)
              (structFields s m.fields fun _ => none), f)) := by
    rw [runBody, Run.bind_apply, execAll_nil, Run.andThen_ok]
    show eval lib p .selfDefault f = _
    rw [eval, Run.bind_apply, Run.get_apply, Run.andThen_ok,
      hSelf, hp.defaultStruct?_message hs hm]
    rfl
  have hEmpty :
      ∃ d', decodeBody s (decode s) [] d = (.ok [], d') :=
    decodeBody_nil_eq d
  rcases hEmpty with ⟨d', hBody⟩
  rw [hRun]
  unfold Reads attempt
  rw [hNone, hBody]
  exact meets_ok ⟨found_nil [], rfl⟩

/- The first tag takes up a byte, if there is one. -/
theorem length_behind_tag
    {data : List UInt8}
    {seq? : Option UInt8}
    {d : Cursor}
    (h :
      (Reader.tag : Reader CodecError _) (Cursor.start data) =
        (.ok seq?, d))
    (hTag : seq? ≠ none) :
    d.remaining.length < data.length := by
  rcases Option.ne_none_iff_exists'.mp hTag with ⟨seq, rfl⟩
  have hPasses := Reader.tag_eq_some_iff.mp h
  have hLength := hPasses.length_remaining_eq
  rw [Cursor.remaining_start, List.length_singleton] at hLength
  omega

/- What a function does before it reads fields. -/
theorem Serves.reads_head
    (hs : s.WellFormed)
    (hp : Serves p s)
    {m : Message TypeRef}
    (hm : m ∈ s.messages)
    (data : List UInt8)
    (goesOn : Bool) :
    Reads (Cursor.start data)
      (execAll lib p
        [
          .openBuffer (.var "data"),
          .bind true "x" .selfDefault,
          .bind goesOn "seq" .readTag,
          .gap
        ]
        (Frame.enter (Names.typeIdent m.name) "data"
          (.bytes data)))
      Reader.tag
      fun seq? d x =>
        x.2 =
          FieldsRead.frame
            ⟨Names.typeIdent m.name, data, goesOn⟩
            (.struct (Names.typeIdent m.name)
              (structFields s m.fields fun _ => none))
            seq? d := by
  let type := Names.typeIdent m.name
  let x :=
    Datum.struct type (structFields s m.fields fun _ => none)
  let f : Frame :=
    { Frame.enter type "data" (.bytes data) with
      input := .start data }
  have hOpen :
      exec lib p (.openBuffer (.var "data"))
          (Frame.enter type "data" (.bytes data)) =
        some (.ok ((), f)) := by
    rw [exec, Run.bind_apply, eval_var (d := .bytes data) rfl]
    rfl
  have hStruct : p.defaultStruct? f.self = some x :=
    hp.defaultStruct?_message hs hm
  have hDefault :
      exec lib p (.bind true "x" .selfDefault) f =
        some (.ok ((), f.bind true "x" x)) := by
    rw [exec, Run.bind_apply, eval, Run.bind_apply,
      Run.get_apply, Run.andThen_ok, hStruct]
    rfl
  have hTag :
      Reads (Cursor.start data)
        (eval lib p .readTag (f.bind true "x" x)) Reader.tag
        fun seq? d y =>
          y = (.tag seq?, (f.bind true "x" x).reached d) := by
    rw [← wire_tag, eval, Run.bind_apply]
    refine (reads_read (f.bind true "x" x) _).andThen_map ?_
    rintro seq? d _ _ _ ⟨⟩
    exact ⟨_, rfl, rfl⟩
  rw [execAll_cons, hOpen, Run.andThen_ok, execAll_cons,
    hDefault, Run.andThen_ok, execAll_cons]
  refine (reads_let hTag).andThen_map ?_
  rintro seq? d _ _ _ ⟨_, _, ⟨⟩, ⟨⟩⟩
  rw [execAll_singleton, exec]
  exact ⟨_, rfl, rfl⟩

/- The body of a function with fields. -/
theorem Serves.reads_someFields
    (hs : s.WellFormed)
    (hp : Serves p s)
    {m : Message TypeRef}
    (hm : m ∈ s.messages)
    {data : List UInt8}
    (h : ReadsMessages lib p s data.length)
    {cs : List FieldCodec}
    (hFields : cs.map FieldCodec.field = m.fields)
    (hCarries :
      ∀ c ∈ cs, Carries p c.field.type c.transfer) :
    Reads (Cursor.start data)
      (runBody lib p
        ⟨[
          .openBuffer (.var "data"),
          .bind true "x" .selfDefault,
          .bind (cs.length ≠ 1) "seq" .readTag,
          .gap
        ] ++ readFields cs,
          .ok (.var "x")⟩
        (Frame.enter (Names.typeIdent m.name) "data"
          (.bytes data)))
      (decodeBody s (decode s) m.fields)
      fun found _ x =>
        Found s cs found ∧
          x.1 =
            .struct (Names.typeIdent m.name)
              (structFields s m.fields
                (taking s (fun _ => none) found)) := by
  have hDeclared :
      ∀ c ∈ cs, c.field ∈ m.fields ∧
        Carries p c.field.type c.transfer ∧
          ReadsValues lib p s data.length c.field.type := by
    intro c hc
    have hMem : c.field ∈ m.fields := by
      rw [← hFields]
      exact List.mem_map_of_mem hc
    exact
      ⟨hMem, hCarries c hc,
        hp.reads_values hs h (hs.closed m hm _ hMem)⟩
  have hNames : (cs.map fun c => c.field.name).Nodup := by
    have hNodup := hs.fieldNames m hm
    rw [← hFields, List.map_map] at hNodup
    exact hNodup
  have hRead :
      ReadsFields lib p s data.length
        ⟨Names.typeIdent m.name, data, cs.length ≠ 1⟩ m.fields
        cs := by
    refine readsFields (hp.fieldIdents m hm) hDeclared hNames ?_
    intro hMany
    exact decide_eq_true (by omega)
  rw [runBody, Run.bind_apply, execAll_append,
    Run.andThen_andThen, decodeBody]
  refine (hp.reads_head hs hm data _).andThen ?_
  rintro seq? d _ _ hOk rfl
  have hBody :=
    hRead (fun _ => none) seq? fun hTag =>
      length_behind_tag hOk hTag
  rw [hFields] at hBody
  refine hBody.andThen_map ?_
  intro found d' _ g _ hQ
  rcases hQ with ⟨hFound, hLocal⟩
  exact ⟨_, eval_var hLocal, hFound, rfl⟩

/-
  A message is read as it is decoded, given that messages of
  fewer bytes are.
-/
theorem Serves.reads_unmarshal
    (hs : s.WellFormed)
    (hp : Serves p s)
    {m : Message TypeRef}
    (hm : m ∈ s.messages)
    {data : List UInt8}
    (h : ReadsMessages lib p s data.length)
    (f : Frame) :
    Meets
      (unmarshalInto lib p (Names.typeIdent m.name)
        (.bytes data) f)
      (decode s m.name data)
      fun v x =>
        Held s (.named (.message m.name)) v ∧
          x.1 = datum s v := by
  rcases hp.messages m hm with
    ⟨c, hMessage, hFields, hCarries⟩
  have hBody :
      Reads (Cursor.start data)
        (runBody lib p (binaryMessage m c).unmarshal
          (Frame.enter (Names.typeIdent m.name)
            (binaryMessage m c).bytes (.bytes data)))
        (decodeBody s (decode s) m.fields)
        fun found _ x =>
          Found s c.fields found ∧
            x.1 =
              .struct (Names.typeIdent m.name)
                (structFields s m.fields
                  (taking s (fun _ => none) found)) := by
    rcases c with ⟨name, _ | ⟨fc, rest⟩⟩
    · exact hp.reads_noFields hs hm hFields.symm rfl _
    · exact hp.reads_someFields hs hm h hFields hCarries
  rw [unmarshalInto]
  simp only [Run.bind_apply, hMessage, Run.lift_some,
    Run.andThen_ok, Run.set_apply]
  rw [decode_eq_attempt (Schema.message?_of_mem hs hm)]
  refine Meets.made hBody ?_
  rintro y x ⟨hFound, hValue⟩
  refine ⟨hFound.held_message hm hFields, ?_⟩
  rw [hFound.datum_message hs hm hFields]
  exact hValue

/- So all messages are read as they are decoded. -/
theorem Serves.reads_messages
    (hs : s.WellFormed)
    (hp : Serves p s)
    (n : Nat) :
    ReadsMessages lib p s n := by
  induction n with
  | zero =>
      intro m hm data hShort
      exact absurd hShort (Nat.not_lt_zero _)
  | succ n ih =>
      intro m hm data hShort f
      have hBelow : ReadsMessages lib p s data.length :=
        fun m' hm' data' hShort' =>
          ih m' hm' data'
            (Nat.lt_of_lt_of_le hShort' (Nat.le_of_lt_succ hShort))
      exact hp.reads_unmarshal hs hm hBelow f

/- What is read is the data of the value that is decoded. -/
theorem Serves.unmarshal_eq
    (hs : s.WellFormed)
    (hp : Serves p s)
    {m : Message TypeRef}
    (hm : m ∈ s.messages)
    (data : List UInt8) :
    Meets (p.unmarshal lib (Names.typeIdent m.name) data)
      (decode s m.name data)
      fun v d =>
        Held s (.named (.message m.name)) v ∧ d = datum s v := by
  have hReads : ReadsMessages lib p s (data.length + 1) :=
    hp.reads_messages hs _
  have hRead :=
    hReads m hm data (Nat.lt_succ_self _)
      (Frame.enter "" "" .unit)
  exact hRead.map fun v x hQ => hQ

end Generated

end TagWire
