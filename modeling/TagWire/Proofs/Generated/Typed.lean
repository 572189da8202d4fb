import TagWire.Proofs.Generated.Agreement
import TagWire.Proofs.Typed.Format

/-
  Structures of a type of their own stand for values, and so
  for the data of generated code: a codec of the structures
  that agrees with the schema does what the code does that is
  generated from the schema.

  Main declarations:
    * `Generated.Portrays`
    * `Generated.FieldsPortray`
    * `Generated.portrays_message`
    * `Generated.RunsAs`
    * `Generated.Agrees.runsAs`
-/

------------------------------------------------------------
-- Data of Structures
------------------------------------------------------------

namespace TagWire

namespace Generated

open Likeness

variable {α β γ κ μ : Type}
variable {s : ResolvedSchema}
variable {type : ResolvedType}
variable {R : Likeness α}
variable {put : α → Datum}

/-
  A value that is like something is held by data, and this
  data is made from what the value is like.
-/
def Portrays
    (s : ResolvedSchema)
    (type : ResolvedType)
    (R : Likeness α)
    (put : α → Datum) :
    Prop :=
  ∀ v a, R v a → Held s type v ∧ datum s v = put a

theorem portrays_number
    (k : NumKind) :
    Portrays s (.scalar (.num k)) (.number k)
      (Datum.number k) := by
  rintro v word rfl
  exact ⟨.number, by rw [datum]⟩

theorem portrays_string :
    Portrays s (.scalar .string) .string Datum.string := by
  rintro v text rfl
  exact ⟨.string, by rw [datum]⟩

theorem portrays_enum
    {e : EnumDecl}
    (he : e ∈ s.enums)
    {ident : String}
    (hIdent : Names.typeIdent e.name = ident)
    {variant : α → String}
    (hVariants :
      ∀ a, variant a ∈ e.variants ∧
        Names.typeIdent (variant a) = variant a) :
    Portrays s (.named (.enum e.name)) (.enum e.name variant)
      fun a => .variant ident (variant a) := by
  rintro v a rfl
  rcases hVariants a with ⟨hMem, hSame⟩
  refine ⟨.enum he hMem, ?_⟩
  rw [datum, hIdent, hSame]

/- What holds of pairs one by one, holds of their lists. -/
theorem of_forall₂
    {S : β → α → Prop}
    {P : β → Prop}
    {f : β → γ}
    {g : α → γ}
    (hEach : ∀ b a, S b a → P b ∧ f b = g a)
    {bs : List β}
    {as : List α}
    (h : List.Forall₂ S bs as) :
    (∀ b ∈ bs, P b) ∧ bs.map f = as.map g := by
  induction h with
  | nil => simp
  | cons hHead _ ih =>
      rcases hEach _ _ hHead with ⟨hFirst, hSame⟩
      rcases ih with ⟨hOthers, hMap⟩
      refine ⟨List.forall_mem_cons.mpr ⟨hFirst, hOthers⟩, ?_⟩
      rw [List.map_cons, List.map_cons, hSame, hMap]

theorem Portrays.list
    (h : Portrays s type R put) :
    Portrays s (.list type) R.list
      fun as => .list (as.map put) := by
  rintro v as ⟨vs, rfl, hElements⟩
  rcases of_forall₂ h hElements with ⟨hHeld, hMap⟩
  refine ⟨.list hHeld, ?_⟩
  rw [datum, datumElements_eq, hMap]

/- Keys are taken over in their order. -/
theorem Portrays.map
    [Ord κ]
    {kind : ScalarKind}
    {key : κ → MapKey}
    (h : Portrays s type R put)
    (hOrder : ∀ k k', compare (key k) (key k') = compare k k')
    (hKind : ∀ k, (key k).kind = kind) :
    Portrays s (.map kind type) (Likeness.map key R)
      fun t =>
        .map (t.entries.map fun e => (key e.1, put e.2)) := by
  rintro v t ⟨entries, rfl, hEntries⟩
  have hEach
      (e : MapKey × Value)
      (e' : κ × α)
      (hMatch : e.1 = key e'.1 ∧ R e.2 e'.2) :
      (e.1.kind = kind ∧ Held s type e.2) ∧
        Prod.map id (datum s) e = (key e'.1, put e'.2) := by
    rcases e with ⟨k, v⟩
    rcases hMatch with ⟨rfl, hValue⟩
    rcases h _ _ hValue with ⟨hHeld, hSame⟩
    exact ⟨⟨hKind _, hHeld⟩, Prod.ext rfl hSame⟩
  rcases of_forall₂ hEach hEntries with ⟨hHeld, hMap⟩
  have hKeys :
      entries.map Prod.fst =
        t.entries.map fun e => key e.1 :=
    (of_forall₂ (P := fun _ => True)
      (fun _ _ hMatch => ⟨trivial, hMatch.1⟩) hEntries).2
  have hAscending : Keyed.Ascending entries := by
    refine List.pairwise_map.mp (?_ :
      (entries.map Prod.fst).Pairwise
        fun k k' => compare k k' = .lt)
    rw [hKeys, List.pairwise_map]
    refine t.ascending.imp ?_
    intro e e' hLt
    rwa [hOrder]
  refine ⟨.map hAscending (fun e he => (hHeld e he).1)
    (fun e he => (hHeld e he).2), ?_⟩
  rw [datum, datumEntries_eq, hMap]

------------------------------------------------------------
-- Fields
------------------------------------------------------------

/- The data of what may be there. -/
def optionDatum
    (put : α → Datum) :
    Option α → Datum
| some a => .present (put a)
| none => .absent

/-
  A slot of a structure stands for a field of a message: what
  the field has is made from the structure.
-/
structure SlotPortrays
    (s : ResolvedSchema)
    (f : Field TypeRef)
    (slot : Slot μ)
    (put : μ → Datum) : Prop where
  name : slot.name = f.name
  held :
    ∀ v? x, slot.Holds v? x →
      (∀ v ∈ v?, Held s f.type v) ∧
        fieldDatum s f.type (v?.map (datum s)) = put x

/- A field that is zero where it is left out. -/
theorem slotPortrays_of
    (f : Field TypeRef)
    (get : μ → α)
    {zero : α}
    (h : Portrays s f.type R put)
    (hByValue : ResolvedType.isByReference f.type = false)
    (hZero : zeroDatum s f.type = put zero) :
    SlotPortrays s f (.of f.name R zero get)
      fun x => put (get x) where
  name := rfl
  held := by
    intro v? x hHolds
    rcases v? with _ | v
    · refine ⟨by simp, hZero.trans ?_⟩
      exact congrArg put hHolds.symm
    · rcases h v (get x) hHolds with ⟨hHeld, hSame⟩
      refine ⟨by simpa using hHeld, ?_⟩
      simp [fieldDatum, hByValue, hSame]

/- A field that has a message or nothing. -/
theorem slotPortrays_option
    (f : Field TypeRef)
    (get : μ → Option α)
    {name : String}
    (h : Portrays s f.type R put)
    (hType : f.type = .named (.message name)) :
    SlotPortrays s f (.of f.name R.option none get)
      fun x => optionDatum put (get x) where
  name := rfl
  held := by
    intro v? x hHolds
    have hByReference :
        ResolvedType.isByReference f.type = true := by
      rw [hType]
      rfl
    rcases v? with _ | v
    · have hNone : get x = none := hHolds
      refine ⟨by simp, ?_⟩
      rw [hNone, hType]
      rfl
    · rcases hHolds with ⟨a, hSome, hLike⟩
      rcases h v a hLike with ⟨hHeld, hSame⟩
      refine ⟨by simpa using hHeld, ?_⟩
      simp [fieldDatum, hByReference, hSame, hSome, optionDatum]

/- The slots of a structure stand for fields in order. -/
inductive FieldsPortray
    (s : ResolvedSchema) :
    List (Field TypeRef) → List (Slot μ) →
      (μ → List (String × Datum)) → Prop
| nil : FieldsPortray s [] [] fun _ => []
| cons
    {f : Field TypeRef}
    {slot : Slot μ}
    {put : μ → Datum}
    {fields : List (Field TypeRef)}
    {slots : List (Slot μ)}
    {puts : μ → List (String × Datum)}
    {ident : String}
    (hIdent : Names.fieldIdent f.name = ident)
    (hHead : SlotPortrays s f slot put)
    (hRest : FieldsPortray s fields slots puts) :
    FieldsPortray s (f :: fields) (slot :: slots)
      fun x => (ident, put x) :: puts x

variable {fields : List (Field TypeRef)}
variable {slots : List (Slot μ)}
variable {puts : μ → List (String × Datum)}

theorem FieldsPortray.names
    (h : FieldsPortray s fields slots puts) :
    slots.map Slot.name = fields.map Field.name := by
  induction h with
  | nil => rfl
  | cons _ hHead _ ih =>
      rw [List.map_cons, List.map_cons, hHead.name, ih]

/- Where all slots hold, the fields have what is made. -/
theorem FieldsPortray.held
    (h : FieldsPortray s fields slots puts)
    (get : String → Option Value)
    {x : μ}
    (hHolds : ∀ l ∈ slots, l.Holds (get l.name) x) :
    (∀ f ∈ fields, ∀ v ∈ get f.name, Held s f.type v) ∧
      structFields s fields
          (fun name => (get name).map (datum s)) =
        puts x := by
  induction h with
  | nil => exact ⟨nofun, rfl⟩
  | @cons f slot put fields slots puts ident hIdent hHead _ ih =>
      rcases List.forall_mem_cons.mp hHolds with
        ⟨hFirst, hOthers⟩
      rw [hHead.name] at hFirst
      rcases hHead.held _ _ hFirst with ⟨hHeld, hSame⟩
      rcases ih hOthers with ⟨hRest, hPuts⟩
      refine ⟨List.forall_mem_cons.mpr ⟨hHeld, hRest⟩, ?_⟩
      exact
        congrArg₂ List.cons (Prod.ext hIdent hSame) hPuts

/- Structures stand for messages as their slots for fields. -/
theorem portrays_message
    (hs : s.WellFormed)
    {m : Message TypeRef}
    (hm : m ∈ s.messages)
    {ident : String}
    (hIdent : Names.typeIdent m.name = ident)
    (h : FieldsPortray s m.fields slots puts) :
    Portrays s (.named (.message m.name))
      (.message m.name slots)
      fun x => .struct ident (puts x) := by
  rintro v x ⟨fields, rfl, hAscending, hDeclared, hHolds⟩
  rcases h.held (fun name => fields.lookup name) hHolds with
    ⟨hHeld, hPuts⟩
  rw [h.names] at hDeclared
  refine ⟨.message hm hAscending hDeclared ?_, ?_⟩
  · intro e he f hf hName
    refine hHeld f hf e.2 ?_
    rw [hName]
    exact
      Keyed.lookup_of_mem (Keyed.nodup_of_ascending hAscending)
        he
  · rw [datum_message hs hm, hPuts, hIdent]

------------------------------------------------------------
-- Codecs of Structures
------------------------------------------------------------

variable [WireMessage μ]
variable {S : Likeness μ}
variable {putMessage : μ → Datum}
variable {lib : JsonLibrary}
variable {p : Program}
variable {name : String}

/-
  The code of a type of data does what the codec of structures
  does, with the data that is made from these: it reads the
  same or fails alike, and it writes the same or fails alike.
-/
structure RunsAs
    (lib : JsonLibrary)
    (p : Program)
    (ident : String)
    (put : μ → Datum) : Prop where
  unmarshal :
    ∀ data, p.unmarshal lib ident data =
      some ((WireMessage.decode data : Except _ μ).map put)
  marshal :
    ∀ x, p.marshal lib (put x) = some (WireMessage.encode x)

/- What agrees with the same schema does the same. -/
theorem Agrees.runsAs
    (h : Agrees lib p s name)
    (hAgree : CodecsAgree s name μ S)
    {ident : String}
    (hIdent : Names.typeIdent name = ident)
    (hPut : Portrays s (.named (.message name)) S putMessage) :
    RunsAs lib p ident putMessage where
  unmarshal := by
    intro data
    have hMeets := h.unmarshal data
    have hAlike := hAgree.decode data
    rw [hIdent] at hMeets
    generalize (WireMessage.decode data : Except _ μ) = r
      at hAlike
    generalize Value.decode s name data = r' at hMeets hAlike
    cases hAlike with
    | ok hLike =>
        rcases hMeets with ⟨d, hRun, _, rfl⟩
        rw [hRun, (hPut _ _ hLike).2]
        rfl
    | error e =>
        rcases hMeets with ⟨w, hSame, hRun⟩
        cases hSame
        exact hRun
  marshal := by
    intro x
    rcases hAgree.faithful.total x with ⟨v, hLike⟩
    rcases hPut v x hLike with ⟨hHeld, hSame⟩
    have hMeets := h.marshal v hHeld
    rw [hAgree.encode v x hLike, hSame] at hMeets
    generalize WireMessage.encode x = r at hMeets
    cases r with
    | ok bytes =>
        rcases hMeets with ⟨_, hRun, rfl⟩
        exact hRun
    | error e =>
        rcases hMeets with ⟨_, hWire, hRun⟩
        cases hWire
        exact hRun

end Generated

end TagWire
