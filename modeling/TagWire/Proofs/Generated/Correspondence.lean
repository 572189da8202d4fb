import TagWire.Proofs.Generated.Datum
import TagWire.Proofs.Generated.Text
import TagWire.Proofs.Value.Conforming

/-
  The data that stands for a value: a message has all of its
  fields, those that the value leaves out with the zero of
  their type, and nothing in place of a message.

  Main declarations:
    * `Generated.Held`
    * `Generated.datum`
    * `Generated.Carries`
    * `Generated.Serves`
-/

------------------------------------------------------------
-- Values That Are Held
------------------------------------------------------------

namespace TagWire

namespace Generated

/-
  A value can be held by data of a type: it is of the type,
  and its enum values are variants of their enums.
-/
inductive Held
    (s : ResolvedSchema) :
    ResolvedType → Value → Prop
| number
    {kind : NumKind}
    {word : kind.Word} :
    Held s (.scalar (.num kind)) (.number kind word)
| string
    {text : String} :
    Held s (.scalar .string) (.string text)
| enum
    {e : EnumDecl}
    {variant : String}
    (hEnum : e ∈ s.enums)
    (hVariant : variant ∈ e.variants) :
    Held s (.named (.enum e.name)) (.enum e.name variant)
| list
    {element : ResolvedType}
    {vs : List Value}
    (hElements : ∀ v ∈ vs, Held s element v) :
    Held s (.list element) (.list vs)
| map
    {key : ScalarKind}
    {type : ResolvedType}
    {entries : List (MapKey × Value)}
    (hAscending : Keyed.Ascending entries)
    (hKeys : ∀ e ∈ entries, e.1.kind = key)
    (hValues : ∀ e ∈ entries, Held s type e.2) :
    Held s (.map key type) (.map entries)
| message
    {m : Message TypeRef}
    {fields : List (String × Value)}
    (hMessage : m ∈ s.messages)
    (hAscending : Keyed.Ascending fields)
    (hDeclared :
      ∀ e ∈ fields, e.1 ∈ m.fields.map Field.name)
    (hValues :
      ∀ e ∈ fields, ∀ f ∈ m.fields,
        f.name = e.1 → Held s f.type e.2) :
    Held s (.named (.message m.name)) (.message m.name fields)

------------------------------------------------------------
-- Data of Values
------------------------------------------------------------

/- The zero of a type. -/
def zeroDatum
    (s : ResolvedSchema) :
    ResolvedType → Datum
| .scalar (.num kind) => .number kind 0
| .scalar .string => .string ""
| .named (.enum name) =>
    let variants := ((s.enum? name).map (·.variants)).getD []
    .variant (Names.typeIdent name)
      (Names.typeIdent (variants.headD ""))
| .named (.message _) => .absent
| .list _ => .list []
| .map _ _ => .map []

/- What a field has for a value, or for none. -/
def fieldDatum
    (s : ResolvedSchema)
    (type : ResolvedType) :
    Option Datum → Datum
| some d => if type.isByReference then .present d else d
| none => zeroDatum s type

/- The fields of the data of a message. -/
def structFields
    (s : ResolvedSchema)
    (declared : List (Field TypeRef))
    (get : String → Option Datum) :
    List (String × Datum) :=
  declared.map fun f =>
    (Names.fieldIdent f.name, fieldDatum s f.type (get f.name))

/- The data of a message, given that of its values. -/
def structDatum
    (s : ResolvedSchema)
    (name : String)
    (get : String → Option Datum) :
    Datum :=
  let declared := ((s.message? name).map (·.fields)).getD []
  .struct (Names.typeIdent name) (structFields s declared get)

mutual

/- The data of a value. -/
def datum
    (s : ResolvedSchema) :
    Value → Datum
| .number kind word => .number kind word
| .string text => .string text
| .enum name variant =>
    .variant (Names.typeIdent name) (Names.typeIdent variant)
| .list elements => .list (datumElements s elements)
| .map entries => .map (datumEntries s entries)
| .message name fields =>
    structDatum s name fun f => (datumFields s fields).lookup f

/- The data of elements. -/
def datumElements
    (s : ResolvedSchema) :
    List Value → List Datum
| [] => []
| v :: rest => datum s v :: datumElements s rest

/- The data of entries. -/
def datumEntries
    (s : ResolvedSchema) :
    List (MapKey × Value) → List (MapKey × Datum)
| [] => []
| (key, v) :: rest => (key, datum s v) :: datumEntries s rest

/- The data of the values that a message has. -/
def datumFields
    (s : ResolvedSchema) :
    List (String × Value) → List (String × Datum)
| [] => []
| (name, v) :: rest => (name, datum s v) :: datumFields s rest

end

variable {s : ResolvedSchema}

theorem datumElements_eq
    (vs : List Value) :
    datumElements s vs = vs.map (datum s) := by
  induction vs with
  | nil => rw [datumElements, List.map_nil]
  | cons v rest ih => rw [datumElements, ih, List.map_cons]

theorem datumEntries_eq
    (entries : List (MapKey × Value)) :
    datumEntries s entries =
      entries.map (Prod.map id (datum s)) := by
  induction entries with
  | nil => rw [datumEntries, List.map_nil]
  | cons e rest ih =>
      rcases e with ⟨key, v⟩
      rw [datumEntries, ih, List.map_cons]
      rfl

/- A name finds the data of what it found. -/
theorem lookup_datumFields
    (fields : List (String × Value))
    (name : String) :
    (datumFields s fields).lookup name =
      (fields.lookup name).map (datum s) := by
  induction fields with
  | nil =>
      rw [datumFields]
      rfl
  | cons e rest ih =>
      rcases e with ⟨name', v⟩
      rw [datumFields, List.lookup_cons, List.lookup_cons, ih]
      cases name == name' <;> rfl

/- The data of a message of the schema. -/
theorem datum_message
    (hs : s.WellFormed)
    {m : Message TypeRef}
    (hm : m ∈ s.messages)
    (fields : List (String × Value)) :
    datum s (.message m.name fields) =
      .struct (Names.typeIdent m.name)
        (structFields s m.fields fun name =>
          (fields.lookup name).map (datum s)) := by
  simp only [datum, structDatum, Schema.message?_of_mem hs hm,
    lookup_datumFields]
  rfl

/- The names of fields are the generated ones. -/
theorem names_structFields
    (declared : List (Field TypeRef))
    (get : String → Option Datum) :
    (structFields s declared get).map Prod.fst =
      declared.map fun f => Names.fieldIdent f.name := by
  rw [structFields, List.map_map]
  rfl

/- A generated name finds the data of its field. -/
theorem lookup_structFields
    {declared : List (Field TypeRef)}
    (hIdents :
      (declared.map fun f => Names.fieldIdent f.name).Nodup)
    {f : Field TypeRef}
    (hf : f ∈ declared)
    (get : String → Option Datum) :
    (structFields s declared get).lookup
        (Names.fieldIdent f.name) =
      some (fieldDatum s f.type (get f.name)) := by
  refine Keyed.lookup_of_mem ?_ (List.mem_map_of_mem hf)
  rwa [names_structFields]

/- A field may be given the data of another value. -/
theorem setField?_structFields
    {declared : List (Field TypeRef)}
    (hIdents :
      (declared.map fun f => Names.fieldIdent f.name).Nodup)
    {f : Field TypeRef}
    (hf : f ∈ declared)
    (type : String)
    (get : String → Option Datum)
    (d : Datum) :
    (Datum.struct type
        (structFields s declared get)).setField?
          (Names.fieldIdent f.name)
          (fieldDatum s f.type (some d)) =
      some
        (.struct type
          (structFields s declared
            (Function.update get f.name (some d)))) := by
  have hSame {g : Field TypeRef} (hg : g ∈ declared) :
      Names.fieldIdent g.name = Names.fieldIdent f.name →
        g = f :=
    List.inj_on_of_nodup_map hIdents hg hf
  have hMem :
      Names.fieldIdent f.name ∈
        (structFields s declared get).map Prod.fst := by
    rw [names_structFields]
    exact List.mem_map_of_mem hf
  rw [Datum.setField?, if_pos hMem]
  refine congrArg (fun fields => some (Datum.struct type fields)) ?_
  unfold structFields
  rw [List.map_map]
  refine List.map_congr_left fun g hg => Prod.ext rfl ?_
  show (if Names.fieldIdent g.name = Names.fieldIdent f.name
      then fieldDatum s f.type (some d)
      else fieldDatum s g.type (get g.name)) = _
  by_cases hName : g.name = f.name
  · rw [hName, if_pos rfl, Function.update_self,
      hSame hg (congrArg Names.fieldIdent hName)]
  · have hIdent :
        Names.fieldIdent g.name ≠ Names.fieldIdent f.name :=
      fun h => hName (congrArg Field.name (hSame hg h))
    rw [if_neg hIdent, Function.update_of_ne hName]

end Generated

end TagWire

------------------------------------------------------------
-- Programs of Schemas
------------------------------------------------------------

namespace TagWire

namespace Generated

open Emit

/- A transfer is that of a type, with all that it calls. -/
inductive Carries
    (p : Program) :
    ResolvedType → Transfer → Prop
| scalar
    {kind : ScalarKind} :
    Carries p (.scalar kind) (.scalar kind)
| enum
    {name : String} :
    Carries p (.named (.enum name)) (.enum name)
| list
    {element : ResolvedType}
    {ident : String}
    {transfer : Transfer}
    (hRoutine :
      p.routine? ident =
        some (listRoutine ident element transfer))
    (hElement : Carries p element transfer) :
    Carries p (.list element) (.routine ident)
| map
    {key : ScalarKind}
    {value : ResolvedType}
    {ident : String}
    {transfer : Transfer}
    (hRoutine :
      p.routine? ident =
        some (mapRoutine ident key value transfer))
    (hValue : Carries p value transfer) :
    Carries p (.map key value) (.routine ident)
| message
    {name ident : String}
    (hRoutine :
      p.routine? ident = some (messageRoutine ident name)) :
    Carries p (.named (.message name)) (.routine ident)

/-
  A program has all enums and messages of a schema under names
  that tell them apart, and carries the types of all fields.
-/
structure Serves
    (p : Program)
    (s : ResolvedSchema) : Prop where
  enums :
    ∀ e ∈ s.enums,
      p.enum? (Names.typeIdent e.name) =
        some (enumItem .binary e)
  variants :
    ∀ e ∈ s.enums, (e.variants.map Names.typeIdent).Nodup
  variantsFit : ∀ e ∈ s.enums, e.variants.length ≤ 2 ^ 32
  messages :
    ∀ m ∈ s.messages, ∃ c : MessageCodec,
      p.message? (Names.typeIdent m.name) =
        some (binaryMessage m c) ∧
      c.fields.map FieldCodec.field = m.fields ∧
      ∀ fc ∈ c.fields, Carries p fc.field.type fc.transfer
  fieldIdents :
    ∀ m ∈ s.messages,
      (m.fields.map fun f => Names.fieldIdent f.name).Nodup
  noEnums :
    ∀ m ∈ s.messages, p.enum? (Names.typeIdent m.name) = none
  noMessages :
    ∀ e ∈ s.enums, p.message? (Names.typeIdent e.name) = none

end Generated

end TagWire
