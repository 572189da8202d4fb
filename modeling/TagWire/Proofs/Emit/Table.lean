import Mathlib.Data.List.Perm.Subperm
import TagWire.Proofs.Emit.Code
import TagWire.Proofs.Keyed
import TagWire.Proofs.Schema.Signature

/-
  How a table of routines grows. What is recorded stays, every
  type that is recorded has its parts recorded with it, and
  each is given a name of its own and one pair of routines.

  Main declarations:
    * `Emit.RoutineTable.freshIdent_not_mem`
    * `Emit.HasRoutine`
    * `Emit.Within`
    * `Emit.RoutineTable.Sound`
    * `Emit.RoutineTable.Complete`
    * `Emit.RoutineTable.Grows`
    * `Emit.RoutineTable.ensures_of_closed`
    * `Emit.RoutineTable.transfers_of_closed`
-/

------------------------------------------------------------
-- Names of Routines
------------------------------------------------------------

namespace TagWire

namespace Emit

namespace RoutineTable

/- No two numbers lead to the same candidate. -/
theorem candidate_injective
    (wanted : String) :
    Function.Injective (candidate wanted) := by
  have hNumbered (n : Nat) :
      wanted ≠ wanted ++ "_" ++ toString n := by
    intro h
    have hLength := congrArg String.length h
    have hMark : "_".length = 1 := rfl
    simp only [String.length_append, hMark] at hLength
    omega
  intro n n' h
  by_cases hn : n = 0
  · by_cases hn' : n' = 0
    · rw [hn, hn']
    · rw [candidate, candidate, if_pos hn, if_neg hn'] at h
      exact absurd h (hNumbered _)
  · by_cases hn' : n' = 0
    · rw [candidate, candidate, if_neg hn, if_pos hn'] at h
      exact absurd h.symm (hNumbered _)
    · rw [candidate, candidate, if_neg hn, if_neg hn'] at h
      have hNumber := (String.append_right_inj _).mp h
      exact Nat.succ.inj (toString_injective hNumber)

/-
  There are more candidates than names that are taken, so one
  of them is not.
-/
theorem freshIdent_mem
    (taken : List String)
    (wanted : String) :
    freshIdent taken wanted ∉ taken ∧
      ∃ n, freshIdent taken wanted = candidate wanted n := by
  unfold freshIdent
  dsimp only
  cases hFind : ((List.range (taken.length + 1)).map
      (candidate wanted)).find? (fun c => c ∉ taken) with
  | some ident =>
      have hMem := List.mem_of_find?_eq_some hFind
      rcases List.mem_map.mp hMem with ⟨n, _, rfl⟩
      have hNot := List.find?_some hFind
      exact ⟨of_decide_eq_true hNot, n, rfl⟩
  | none =>
      have hSubset :
          (List.range (taken.length + 1)).map
            (candidate wanted) ⊆ taken := by
        intro c hc
        have hNone := List.find?_eq_none.mp hFind c hc
        simpa using hNone
      have hNodup :
          ((List.range (taken.length + 1)).map
            (candidate wanted)).Nodup :=
        List.nodup_range.map (candidate_injective wanted)
      have hLength :=
        (List.subperm_of_subset hNodup hSubset).length_le
      simp at hLength

theorem freshIdent_not_mem
    (taken : List String)
    (wanted : String) :
    freshIdent taken wanted ∉ taken :=
  (freshIdent_mem taken wanted).1

theorem isWord_wantedIdent
    {type : ResolvedType}
    (h : TypeWorded type) :
    IsWord (wantedIdent type) := by
  have hList : IsWord "list_" :=
    isWord_of_isIdentifier (by decide)
  have hMap : IsWord "map_" := isWord_of_isIdentifier (by decide)
  induction type with
  | scalar kind => exact isWord_scalarName kind
  | named r => exact isWord_snakeCase (h r .refl)
  | list element ih =>
      have hElement := ih fun r hr => h r (.element hr)
      exact isWord_append_iff.mpr ⟨hList, hElement⟩
  | map key value ih =>
      have hValue := ih fun r hr => h r (.value hr)
      have hKey :=
        isWord_append_iff.mpr ⟨hMap, isWord_scalarName key⟩
      exact isWord_append_iff.mpr
        ⟨isWord_append_iff.mpr ⟨hKey, isWord_underscore⟩,
          hValue⟩

/- The name that the next new type is given. -/
def nextIdent
    (t : RoutineTable)
    (type : ResolvedType) :
    String :=
  freshIdent t.idents (wantedIdent type)

theorem isWord_nextIdent
    (t : RoutineTable)
    {type : ResolvedType}
    (h : TypeWorded type) :
    IsWord (t.nextIdent type) := by
  have hWanted := isWord_wantedIdent h
  rcases (freshIdent_mem t.idents (wantedIdent type)).2 with
    ⟨n, hFresh⟩
  rw [nextIdent, hFresh, candidate]
  split
  · exact hWanted
  · exact isWord_append_iff.mpr
      ⟨isWord_append_iff.mpr ⟨hWanted, isWord_underscore⟩,
        isWord_toString _⟩

end RoutineTable

end Emit

end TagWire

------------------------------------------------------------
-- Types With Routines
------------------------------------------------------------

namespace TagWire

namespace TypeExpr

variable {ρ : Type}
variable {inner type : TypeExpr ρ}

theorem Part.trans
    {middle : TypeExpr ρ}
    (h : Part inner middle)
    (h' : Part middle type) :
    Part inner type := by
  induction h' with
  | refl => exact h
  | element _ ih => exact .element ih
  | value _ ih => exact .value ih

/- A type is not smaller than its parts. -/
theorem Part.sizeOf_le
    [SizeOf ρ]
    (h : Part inner type) :
    sizeOf inner ≤ sizeOf type := by
  induction h with
  | refl => exact Nat.le_refl _
  | element _ ih =>
      rw [list.sizeOf_spec]
      omega
  | value _ ih =>
      rw [map.sizeOf_spec]
      omega

end TypeExpr

namespace Emit

/- Lists, maps and messages are transferred by routines. -/
def HasRoutine : ResolvedType → Prop
| .list _ => True
| .map _ _ => True
| .named (.message _) => True
| _ => False

/- The types with routines that occur in a type. -/
def Within
    (type inner : ResolvedType) : Prop :=
  HasRoutine inner ∧ TypeExpr.Part inner type

/-
  A list or a map holds values of one other type. Its routines
  are made from how such a value is transferred.
-/
inductive Holds
    (element : ResolvedType) :
    ResolvedType → (Transfer → RoutineBody) → Prop
| list : Holds element (.list element) (.list element)
| map
    (key : ScalarKind) :
    Holds element (.map key element) (.map key element)

namespace Holds

variable {type element : ResolvedType}
variable {body : Transfer → RoutineBody}

theorem part
    (h : Holds element type body) :
    TypeExpr.Part element type := by
  cases h with
  | list => exact .element .refl
  | map key => exact .value .refl

/- No type holds itself. -/
theorem not_part
    (h : Holds element type body) :
    ¬ TypeExpr.Part type element := by
  intro hPart
  have hSize := hPart.sizeOf_le
  cases h with
  | list =>
      rw [TypeExpr.list.sizeOf_spec] at hSize
      omega
  | map key =>
      rw [TypeExpr.map.sizeOf_spec] at hSize
      omega

theorem within_iff
    (h : Holds element type body)
    (inner : ResolvedType) :
    Within type inner ↔ inner = type ∨ Within element inner := by
  have hPart :
      TypeExpr.Part inner type ↔
        inner = type ∨ TypeExpr.Part inner element := by
    cases h with
    | list => exact TypeExpr.part_list_iff
    | map key => exact TypeExpr.part_map_iff
  have hType : HasRoutine type := by
    cases h with
    | list => trivial
    | map key => trivial
  unfold Within
  rw [hPart]
  constructor
  · rintro ⟨hRoutine, hSame | hInner⟩
    · exact .inl hSame
    · exact .inr ⟨hRoutine, hInner⟩
  · rintro (rfl | ⟨hRoutine, hInner⟩)
    · exact ⟨hType, .inl rfl⟩
    · exact ⟨hRoutine, .inr hInner⟩

theorem ensure_eq
    (h : Holds element type body) :
    RoutineTable.ensure type =
      RoutineTable.ensureWith type fun ident => do
        let transfer ← RoutineTable.transferOf element
        return [⟨ident, body transfer⟩] := by
  cases h with
  | list => rfl
  | map key => rfl

theorem worded
    (h : Holds element type body)
    {ident : String}
    {transfer : Transfer}
    (hIdent : IsWord ident)
    (hElement : TypeWorded element)
    (hTransfer : transfer.Worded) :
    (Routine.mk ident (body transfer)).Worded := by
  cases h with
  | list => exact ⟨hIdent, hElement, hTransfer⟩
  | map key => exact ⟨hIdent, hElement, hTransfer⟩

theorem calls_eq
    (h : Holds element type body)
    (ident : String)
    (transfer : Transfer) :
    (Routine.mk ident (body transfer)).calls =
      transfer.calls := by
  cases h with
  | list => rfl
  | map key => rfl

end Holds

end Emit

end TagWire

------------------------------------------------------------
-- Growing Tables
------------------------------------------------------------

namespace TagWire

namespace Emit

namespace RoutineTable

/- No type is recorded twice, and no name is given twice. -/
structure Sound
    (t : RoutineTable) : Prop where
  signatures : t.signatures.Nodup
  idents : t.idents.Nodup
  words : ∀ ident ∈ t.idents, IsWord ident

/- A type is recorded in a table. -/
def Records
    (t : RoutineTable)
    (type : ResolvedType) : Prop :=
  ResolvedType.signature type ∈ t.signatures

/- The recorded ones of some types have their parts recorded. -/
def Complete
    (P : ResolvedType → Prop)
    (t : RoutineTable) : Prop :=
  ∀ type, P type → t.Records type →
    ∀ inner, Within type inner → t.Records inner

/-
  A table is grown by some types. The types that were not
  recorded are behind those that were, and each has one pair
  of routines that calls none but recorded ones.
-/
structure Grows
    (needed : ResolvedType → Prop)
    (t t' : RoutineTable) : Prop where
  sound : t'.Sound
  signatures :
    ∀ signature,
      signature ∈ t'.signatures ↔
        signature ∈ t.signatures ∨
          ∃ type, needed type ∧
            ResolvedType.signature type = signature
  routines :
    ∃ added made,
      t'.recorded = t.recorded ++ added ∧
      t'.routines = t.routines ++ made ∧
      (made.map Routine.ident).Perm (added.map Prod.snd) ∧
      ∀ r ∈ made,
        r.Worded ∧ ∀ callee ∈ r.calls, callee ∈ t'.idents

section Lookup

variable {t : RoutineTable}
variable {type : ResolvedType}
variable {signature ident : String}

theorem mem_idents_of_lookup
    (h : t.recorded.lookup signature = some ident) :
    ident ∈ t.idents :=
  List.mem_map_of_mem (Keyed.mem_of_lookup h)

theorem records_of_lookup
    (h :
      t.recorded.lookup (ResolvedType.signature type) =
        some ident) :
    t.Records type :=
  List.mem_map_of_mem (Keyed.mem_of_lookup h)

/- A recorded type has a name. -/
theorem Records.exists_lookup
    (hSound : t.Sound)
    (h : t.Records type) :
    ∃ ident,
      t.recorded.lookup (ResolvedType.signature type) =
        some ident := by
  rcases List.mem_map.mp h with ⟨⟨signature, ident⟩, hMem, rfl⟩
  exact ⟨ident, Keyed.lookup_of_mem hSound.signatures hMem⟩

end Lookup

variable {needed needed' : ResolvedType → Prop}
variable {t t' t'' : RoutineTable}

/- What is recorded stays. -/
theorem Grows.lookup
    (h : Grows needed t t')
    {signature ident : String}
    (hLookup : t.recorded.lookup signature = some ident) :
    t'.recorded.lookup signature = some ident := by
  rcases h.routines with ⟨added, _, hRecorded, _⟩
  rw [hRecorded, List.lookup_append, hLookup]
  rfl

theorem Grows.mem_idents
    (h : Grows needed t t')
    {ident : String}
    (hIdent : ident ∈ t.idents) :
    ident ∈ t'.idents := by
  rcases h.routines with ⟨added, _, hRecorded, _⟩
  rw [idents, hRecorded, List.map_append]
  exact List.mem_append_left _ hIdent

theorem Grows.records
    (h : Grows needed t t')
    {type : ResolvedType}
    (hType : t.Records type) :
    t'.Records type :=
  (h.signatures _).mpr (.inl hType)

theorem Grows.records_needed
    (h : Grows needed t t')
    {type : ResolvedType}
    (hType : needed type) :
    t'.Records type :=
  (h.signatures _).mpr (.inr ⟨type, hType, rfl⟩)

/- A table that has all that is needed stays as it is. -/
theorem Grows.refl
    (hSound : t.Sound)
    (h : ∀ type, needed type → t.Records type) :
    Grows needed t t := by
  refine ⟨hSound, fun signature => ⟨.inl, ?_⟩,
    [], [], (List.append_nil _).symm, (List.append_nil _).symm,
    .nil, by simp⟩
  rintro (hSignature | ⟨type, hType, rfl⟩)
  · exact hSignature
  · exact h type hType

theorem Grows.trans
    (h : Grows needed t t')
    (h' : Grows needed' t' t'') :
    Grows (fun type => needed type ∨ needed' type) t t'' := by
  rcases h.routines with
    ⟨added, made, hRecorded, hRoutines, hPerm, hMade⟩
  rcases h'.routines with
    ⟨added', made', hRecorded', hRoutines', hPerm', hMade'⟩
  refine ⟨h'.sound, fun signature => ?_, added ++ added',
    made ++ made', ?_, ?_, ?_, ?_⟩
  · rw [h'.signatures, h.signatures]
    constructor
    · rintro ((hOld | ⟨type, hType, hSame⟩) |
        ⟨type, hType, hSame⟩)
      · exact .inl hOld
      · exact .inr ⟨type, .inl hType, hSame⟩
      · exact .inr ⟨type, .inr hType, hSame⟩
    · rintro (hOld | ⟨type, hType | hType, hSame⟩)
      · exact .inl (.inl hOld)
      · exact .inl (.inr ⟨type, hType, hSame⟩)
      · exact .inr ⟨type, hType, hSame⟩
  · rw [hRecorded', hRecorded, List.append_assoc]
  · rw [hRoutines', hRoutines, List.append_assoc]
  · rw [List.map_append, List.map_append]
    exact hPerm.append hPerm'
  · intro r hr
    rcases List.mem_append.mp hr with hr | hr
    · exact ⟨(hMade r hr).1, fun callee hCallee =>
        h'.mem_idents ((hMade r hr).2 callee hCallee)⟩
    · exact hMade' r hr

theorem Grows.congr
    (h : Grows needed t t')
    (hSame : ∀ type, needed type ↔ needed' type) :
    Grows needed' t t' := by
  rwa [funext fun type => propext (hSame type)] at h

theorem signatures_record
    (signature ident : String) :
    (record signature ident t).signatures =
      t.signatures ++ [signature] :=
  List.map_append

theorem idents_record
    (signature ident : String) :
    (record signature ident t).idents = t.idents ++ [ident] :=
  List.map_append

/- What is recorded is found. -/
theorem lookup_record
    {signature ident : String}
    (h : t.recorded.lookup signature = none) :
    (record signature ident t).recorded.lookup signature =
      some ident := by
  rw [record, List.lookup_append, h, List.lookup_cons_self]
  rfl

/- A new type is recorded under a name that is not taken. -/
theorem Sound.record
    (hSound : t.Sound)
    {type : ResolvedType}
    (hType : TypeWorded type)
    (hNew : ¬ t.Records type) :
    (record (ResolvedType.signature type) (t.nextIdent type)
      t).Sound := by
  refine ⟨?_, ?_, ?_⟩
  · rw [signatures_record]
    exact hSound.signatures.append (List.nodup_singleton _)
      (List.disjoint_singleton.mpr hNew)
  · rw [idents_record]
    exact hSound.idents.append (List.nodup_singleton _)
      (List.disjoint_singleton.mpr (freshIdent_not_mem _ _))
  · rw [idents_record]
    refine List.forall_mem_append.mpr ⟨hSound.words, ?_⟩
    rw [List.forall_mem_singleton]
    exact isWord_nextIdent t hType

/-
  A new type grows a table by itself and by what its routines
  need, once these stand behind the routines that they call.
-/
theorem Grows.add
    {type : ResolvedType}
    {r : Routine}
    (h :
      Grows needed
        (record (ResolvedType.signature type) r.ident t) t')
    (hWorded : r.Worded)
    (hCalls : ∀ callee ∈ r.calls, callee ∈ t'.idents) :
    Grows (fun inner => inner = type ∨ needed inner) t
      (add [r] t') := by
  rcases h.routines with
    ⟨added, made, hRecorded, hRoutines, hPerm, hMade⟩
  refine ⟨⟨h.sound.1, h.sound.2, h.sound.3⟩,
    fun signature => ?_,
    (ResolvedType.signature type, r.ident) :: added,
    made ++ [r], ?_, ?_, ?_, ?_⟩
  · have hSignatures := h.signatures signature
    rw [signatures_record, List.mem_append,
      List.mem_singleton] at hSignatures
    refine hSignatures.trans ?_
    constructor
    · rintro ((hOld | rfl) | ⟨inner, hInner, hSame⟩)
      · exact .inl hOld
      · exact .inr ⟨type, .inl rfl, rfl⟩
      · exact .inr ⟨inner, .inr hInner, hSame⟩
    · rintro (hOld | ⟨inner, rfl | hInner, hSame⟩)
      · exact .inl (.inl hOld)
      · exact .inl (.inr hSame.symm)
      · exact .inr ⟨inner, hInner, hSame⟩
  · rw [RoutineTable.add, hRecorded, record, List.append_assoc]
    rfl
  · rw [RoutineTable.add, hRoutines, record, List.append_assoc]
  · rw [List.map_append, List.map_cons]
    exact List.perm_append_comm.trans (hPerm.cons r.ident)
  · intro r' hr'
    rcases List.mem_append.mp hr' with hr' | hr'
    · exact hMade r' hr'
    · obtain rfl := List.mem_singleton.mp hr'
      exact ⟨hWorded, hCalls⟩

end RoutineTable

end Emit

end TagWire

------------------------------------------------------------
-- Making Routines
------------------------------------------------------------

namespace TagWire

namespace Emit

namespace RoutineTable

variable {t : RoutineTable}
variable {type : ResolvedType}

/- A recorded type has its name found, and nothing is made. -/
theorem run_ensure_of_lookup
    {ident : String}
    (h :
      t.recorded.lookup (ResolvedType.signature type) =
        some ident) :
    (ensure type).run t = (ident, t) := by
  have hWith
      (make : String → StateM RoutineTable (List Routine)) :
      (ensureWith type make).run t = (ident, t) := by
    simp only [ensureWith, StateT.run_bind, StateT.run_get,
      pure_bind, h]
    rfl
  rcases type with kind | (name | name) | element | ⟨key, value⟩
  · exact hWith _
  · exact hWith _
  · exact hWith _
  · exact hWith _
  · exact hWith _

/- A new type has its name made, and then its routines. -/
theorem run_ensureWith_of_new
    {make : String → StateM RoutineTable (List Routine)}
    {rs : List Routine}
    {t' : RoutineTable}
    (hNew :
      t.recorded.lookup (ResolvedType.signature type) = none)
    (hMake :
      (make (t.nextIdent type)).run
          (record (ResolvedType.signature type)
            (t.nextIdent type) t) =
        (rs, t')) :
    (ensureWith type make).run t =
      (t.nextIdent type, add rs t') := by
  unfold nextIdent at hMake
  simp only [ensureWith, StateT.run_bind, StateT.run_get,
    StateT.run_modify, pure_bind, hNew, hMake]
  rfl

/-
  A type with routines has them in the table afterwards, and
  so have all types inside it.
-/
def Ensures
    (type : ResolvedType)
    (t : RoutineTable) : Prop :=
  ∃ ident t',
    (ensure type).run t = (ident, t') ∧
    t'.recorded.lookup (ResolvedType.signature type) =
      some ident ∧
    Grows (Within type) t t'

/-
  A type that is recorded has all inside it recorded already.
  Of any other the one pair of routines is made in the table
  that records it, and needs the types inside it only.
-/
theorem ensures_of_make
    {make : String → StateM RoutineTable (List Routine)}
    {needed : ResolvedType → Prop}
    (hEnsure : ensure type = ensureWith type make)
    (hWithin :
      ∀ inner,
        Within type inner ↔ inner = type ∨ needed inner)
    (hSound : t.Sound)
    (hComplete : t.Complete (TypeExpr.Part · type))
    (hMake :
      ¬ t.Records type →
        ∃ r t',
          (make (t.nextIdent type)).run
              (record (ResolvedType.signature type)
                (t.nextIdent type) t) =
            ([r], t') ∧
          r.ident = t.nextIdent type ∧
          r.Worded ∧
          (∀ callee ∈ r.calls, callee ∈ t'.idents) ∧
          Grows needed
            (record (ResolvedType.signature type)
              (t.nextIdent type) t) t') :
    Ensures type t := by
  cases hLookup :
      t.recorded.lookup (ResolvedType.signature type) with
  | some ident =>
      exact ⟨ident, t, run_ensure_of_lookup hLookup, hLookup,
        .refl hSound
          (hComplete type .refl (records_of_lookup hLookup))⟩
  | none =>
      have hNew : ¬ t.Records type := by
        intro hRecords
        rcases hRecords.exists_lookup hSound with ⟨ident, hSome⟩
        rw [hLookup] at hSome
        cases hSome
      rcases hMake hNew with
        ⟨r, t', hRun, hIdent, hWorded, hCalls, hGrows⟩
      refine ⟨t.nextIdent type, add [r] t', ?_,
        hGrows.lookup (lookup_record hLookup), ?_⟩
      · rw [hEnsure]
        exact run_ensureWith_of_new hLookup hRun
      · rw [← hIdent] at hGrows
        exact (Grows.add hGrows hWorded hCalls).congr
          fun inner => (hWithin inner).symm

/- A type is transferred by none but recorded routines. -/
def Transfers
    (type : ResolvedType)
    (t : RoutineTable) : Prop :=
  ∃ transfer t',
    (transferOf type).run t = (transfer, t') ∧
    transfer.Worded ∧
    (∀ callee ∈ transfer.calls, callee ∈ t'.idents) ∧
    Grows (Within type) t t'

theorem transfers_of_ensures
    (hSound : t.Sound)
    (hType : TypeWorded type)
    (hEnsures : HasRoutine type → Ensures type t) :
    Transfers type t := by
  have hRoutine
      (hHas : HasRoutine type)
      (hRun :
        transferOf type = return .routine (← ensure type)) :
      Transfers type t := by
    rcases hEnsures hHas with
      ⟨ident, t', hEnsure, hLookup, hGrows⟩
    have hIdent := mem_idents_of_lookup hLookup
    refine ⟨.routine ident, t', ?_,
      hGrows.sound.words ident hIdent, ?_, hGrows⟩
    · rw [hRun, StateT.run_bind, hEnsure]
      rfl
    · exact fun callee hCallee =>
        List.mem_singleton.mp hCallee ▸ hIdent
  have hPlain
      (hHas : ∀ inner, ¬ Within type inner) :
      Grows (Within type) t t :=
    .refl hSound fun inner hInner => absurd hInner (hHas inner)
  rcases type with kind | (name | name) | element | ⟨key, value⟩
  · refine ⟨.scalar kind, t, rfl, trivial,
      by simp [Transfer.calls], hPlain fun inner hInner => ?_⟩
    obtain rfl := TypeExpr.part_scalar_iff.mp hInner.2
    exact hInner.1
  · refine ⟨.enum name, t, rfl, hType _ .refl,
      by simp [Transfer.calls], hPlain fun inner hInner => ?_⟩
    obtain rfl := TypeExpr.part_named_iff.mp hInner.2
    exact hInner.1
  · exact hRoutine trivial rfl
  · exact hRoutine trivial rfl
  · exact hRoutine trivial rfl

end RoutineTable

end Emit

end TagWire

------------------------------------------------------------
-- Types of a Schema
------------------------------------------------------------

namespace TagWire

namespace Emit

namespace RoutineTable

variable {text : String}
variable {s : ResolvedSchema}
variable {t t' : RoutineTable}
variable {type : ResolvedType}

/- References in a closed type are words. -/
theorem typeWorded_of_closed
    (h : compile text = .ok s)
    (hType : s.Closed type) :
    TypeWorded type :=
  fun r hPart =>
    (Schema.legible_of_compile h).word r (hType.part hPart)

/-
  While the routines of a type are made, it is recorded, but
  what is inside it is not. It is not inside itself, though.
-/
theorem complete_record
    (h : compile text = .ok s)
    {element : ResolvedType}
    {body : Transfer → RoutineBody}
    {ident : String}
    (hHolds : Holds element type body)
    (hType : s.Closed type)
    (hComplete : t.Complete (TypeExpr.Part · type)) :
    (record (ResolvedType.signature type) ident t).Complete
      (TypeExpr.Part · element) := by
  intro middle hMiddle hRecords inner hInner
  have hWithin := hMiddle.trans hHolds.part
  unfold Records at hRecords ⊢
  rw [signatures_record, List.mem_append] at hRecords ⊢
  rcases hRecords with hRecords | hSame
  · exact .inl (hComplete middle hWithin hRecords inner hInner)
  · have hEq :=
      Schema.eq_of_signature_eq h (hType.part hWithin) hType
        (List.mem_singleton.mp hSame)
    exact absurd (hEq ▸ hMiddle) hHolds.not_part

/-
  The routines of a type with one other type inside call those
  of that type.
-/
theorem ensures_container
    (h : compile text = .ok s)
    {element : ResolvedType}
    {body : Transfer → RoutineBody}
    (hHolds : Holds element type body)
    (hType : s.Closed type)
    (hTransfers :
      ∀ t : RoutineTable,
        t.Sound → t.Complete (TypeExpr.Part · element) →
          Transfers element t)
    (hSound : t.Sound)
    (hComplete : t.Complete (TypeExpr.Part · type)) :
    Ensures type t := by
  have hWords := typeWorded_of_closed h hType
  have hElement :=
    typeWorded_of_closed h (hType.part hHolds.part)
  apply ensures_of_make hHolds.ensure_eq hHolds.within_iff hSound
    hComplete
  intro hNew
  rcases hTransfers _ (hSound.record hWords hNew)
      (complete_record h hHolds hType hComplete) with
    ⟨transfer, t', hRun, hTransfer, hCallees, hGrows⟩
  refine ⟨⟨t.nextIdent type, body transfer⟩, t', ?_, rfl,
    hHolds.worded (isWord_nextIdent t hWords) hElement hTransfer,
    ?_, hGrows⟩
  · rw [StateT.run_bind, hRun]
    rfl
  · rw [hHolds.calls_eq]
    exact hCallees

/- The routines of a message call no others. -/
theorem ensures_message
    {name : String}
    (hWords : TypeWorded (.named (.message name)))
    (hSound : t.Sound)
    (hComplete :
      t.Complete (TypeExpr.Part · (.named (.message name)))) :
    Ensures (.named (.message name)) t := by
  have hWithin :
      ∀ inner,
        Within (.named (.message name)) inner ↔
          inner = .named (.message name) ∨ False := by
    intro inner
    unfold Within
    rw [TypeExpr.part_named_iff, or_false]
    constructor
    · exact And.right
    · rintro rfl
      exact ⟨trivial, rfl⟩
  apply ensures_of_make rfl hWithin hSound hComplete
  intro hNew
  exact ⟨⟨t.nextIdent (.named (.message name)), .message name⟩,
    _, rfl, rfl, ⟨isWord_nextIdent t hWords, hWords _ .refl⟩,
    by simp [Routine.calls],
    .refl (hSound.record hWords hNew) fun _ => False.elim⟩

/- Every type of a schema has its routines made. -/
theorem ensures_of_closed
    (h : compile text = .ok s)
    (hType : s.Closed type)
    (hRoutine : HasRoutine type)
    (hSound : t.Sound)
    (hComplete : t.Complete (TypeExpr.Part · type)) :
    Ensures type t := by
  induction type generalizing t with
  | scalar kind => exact absurd hRoutine id
  | named r =>
      cases r with
      | enum name => exact absurd hRoutine id
      | message name =>
          exact ensures_message (typeWorded_of_closed h hType)
            hSound hComplete
  | list element ih =>
      refine ensures_container h .list hType ?_ hSound hComplete
      intro t hSound hComplete
      exact transfers_of_ensures hSound
        (typeWorded_of_closed h hType)
        fun hHas => ih hType hHas hSound hComplete
  | map key value ih =>
      refine ensures_container h (.map key) hType ?_ hSound
        hComplete
      intro t hSound hComplete
      exact transfers_of_ensures hSound
        (typeWorded_of_closed h hType.2)
        fun hHas => ih hType.2 hHas hSound hComplete

/- So has every type of a schema that is transferred. -/
theorem transfers_of_closed
    (h : compile text = .ok s)
    (hType : s.Closed type)
    (hSound : t.Sound)
    (hComplete : t.Complete (TypeExpr.Part · type)) :
    Transfers type t :=
  transfers_of_ensures hSound (typeWorded_of_closed h hType)
    fun hRoutine =>
      ensures_of_closed h hType hRoutine hSound hComplete

/- Whole types leave nothing out. -/
theorem Grows.complete
    {needed : ResolvedType → Prop}
    (h : compile text = .ok s)
    (hComplete : t.Complete s.Closed)
    (hGrows : Grows needed t t')
    (hClosed : ∀ type, needed type → s.Closed type)
    (hNeeded :
      ∀ type, needed type →
        ∀ inner, Within type inner → needed inner) :
    t'.Complete s.Closed := by
  intro type hType hRecords inner hInner
  rcases (hGrows.signatures _).mp hRecords with
    hOld | ⟨type', hType', hSame⟩
  · exact hGrows.records (hComplete type hType hOld inner hInner)
  · obtain rfl :=
      Schema.eq_of_signature_eq h (hClosed type' hType') hType
        hSame
    exact hGrows.records_needed (hNeeded _ hType' inner hInner)

end RoutineTable

end Emit

end TagWire
