import TagWire.Proofs.Generated.Calls
import TagWire.Proofs.Json.Reading
import TagWire.Proofs.Typed.Likeness

/-
  Messages that are carried as JSON. The library that writes
  and reads them is not generated: what is asked of it is that
  it follows the JSON value of the data, form by form, and the
  texts of JSON. Data whose type has no lists, no floats and
  no signed numbers is then read back as it was.

  Main declarations:
    * `Generated.Serde.Serializes`
    * `Generated.Serde.Deserializes`
    * `Generated.JsonLibrary.Writes`
    * `Generated.JsonLibrary.Reads`
    * `Generated.Carried`
    * `Generated.Carried.unmarshal_marshal`
    * `Generated.Serde.derived`
    * `Generated.JsonLibrary.compact`
-/

------------------------------------------------------------
-- What Is Asked of the Library
------------------------------------------------------------

namespace TagWire

namespace Generated

/-
  What the traits that are derived for data types come to: the
  JSON value of data, and the data of a type from a JSON value.
-/
structure Serde where
  serialize? : Program → Datum → Option Json
  deserialize? : Program → CodeType → Json → Option Datum

/-
  A type asks for both traits, and for nothing that would
  change the names in its JSON value.
-/
structure Attributes.IsDerived
    (a : Attributes) : Prop where
  serialize : "::dgen::serde::Serialize" ∈ a.derives
  deserialize : "::dgen::serde::Deserialize" ∈ a.derives
  others :
    ∀ other ∈ a.others,
      other = "serde(crate = \"::dgen::serde\")" ∨
        other = "repr(u32)"

/-
  The JSON value of data. A variant is written by its name, a
  map with strings as keys as an object in the order of the
  map, and a struct as an object in the order of its fields.
  What is absent is null, and what is present is written as
  if it could not be absent.
-/
structure Serde.Serializes
    (serde : Serde) : Prop where
  integer :
    ∀ p k word,
      serde.serialize? p (.number (.int k) word) =
        some (.int (k.value word))
  string :
    ∀ p text,
      serde.serialize? p (.string text) = some (.string text)
  variant :
    ∀ p ident e v,
      p.enum? ident = some e →
      e.attributes.IsDerived →
      v ∈ e.variants →
        serde.serialize? p (.variant ident v.ident) =
          some (.string v.ident)
  map :
    ∀ p entries members,
      List.Forall₂
        (fun m e =>
          e.1 = MapKey.string m.1 ∧
            serde.serialize? p e.2 = some m.2)
        members entries →
        serde.serialize? p (.map entries) =
          some (.object members)
  struct :
    ∀ p ident m (get : String → Datum) members,
      p.message? ident = some m →
      m.data.attributes.IsDerived →
      List.Forall₂
        (fun member f =>
          member.1 = f.1 ∧
            serde.serialize? p (get f.1) = some member.2)
        members m.data.fields →
        serde.serialize? p
            (.struct ident
              (m.data.fields.map fun f => (f.1, get f.1))) =
          some (.object members)
  absent :
    ∀ p, serde.serialize? p .absent = some .null
  present :
    ∀ p d,
      serde.serialize? p (.present d) = serde.serialize? p d

/-
  The data of a type from a JSON value. The members of an
  object may stand in any order as long as no name is there
  twice: those of a struct are found by the names of the
  fields, others are passed over, and those of a map are
  inserted one after the other.
-/
structure Serde.Deserializes
    (serde : Serde) : Prop where
  integer :
    ∀ p k word,
      serde.deserialize? p (.number (.int k))
          (.int (k.value word)) =
        some (.number (.int k) word)
  string :
    ∀ p text,
      serde.deserialize? p .string (.string text) =
        some (.string text)
  variant :
    ∀ p ident e v,
      p.enum? ident = some e →
      e.attributes.IsDerived →
      v ∈ e.variants →
        serde.deserialize? p (.named ident) (.string v.ident) =
          some (.variant ident v.ident)
  map :
    ∀ p value members entries,
      List.Forall₂
        (fun m e =>
          e.1 = MapKey.string m.1 ∧
            serde.deserialize? p value m.2 = some e.2)
        members entries →
        serde.deserialize? p (.map .string value)
            (.object members) =
          some (.map (Keyed.ofList entries))
  struct :
    ∀ p ident m (get : String → Datum) members,
      p.message? ident = some m →
      m.data.attributes.IsDerived →
      (members.map Prod.fst).Nodup →
      (∀ f ∈ m.data.fields,
        ∃ j, (f.1, j) ∈ members ∧
          serde.deserialize? p f.2 j = some (get f.1)) →
        serde.deserialize? p (.named ident) (.object members) =
          some
            (.struct ident
              (m.data.fields.map fun f => (f.1, get f.1)))
  absent :
    ∀ p inner,
      serde.deserialize? p (.option inner) .null = some .absent
  present :
    ∀ p inner j,
      j ≠ .null →
        serde.deserialize? p (.option inner) j =
          (serde.deserialize? p inner j).map .present
  boxed :
    ∀ p inner j,
      serde.deserialize? p (.boxed inner) j =
        serde.deserialize? p inner j

/- How many objects the library reads inside each other. -/
def recursionLimit : Nat := 127

namespace JsonLibrary

/- The library writes a text of the JSON value of data. -/
def Writes
    (lib : JsonLibrary)
    (serde : Serde) :
    Prop :=
  ∀ p d j depth,
    serde.serialize? p d = some j →
    j.Plain depth →
      ∃ data, lib.write? p d = some data ∧ j.IsText data

/-
  The library reads from every text of a JSON value what the
  value is as data, unless it goes too deep.
-/
def Reads
    (lib : JsonLibrary)
    (serde : Serde) :
    Prop :=
  ∀ p type j data,
    j.Plain recursionLimit →
    j.IsText data →
      lib.read? p type data = serde.deserialize? p type j

end JsonLibrary

end Generated

end TagWire

------------------------------------------------------------
-- Data as JSON
------------------------------------------------------------

namespace TagWire

namespace Generated

variable {p : Program}
variable {serde : Serde}
variable {type : CodeType}
variable {depth : Nat}

/-
  Types of which the JSON values have natural numbers only and
  no lists, in which objects are inside each other to some
  depth only.
-/
inductive Carried
    (p : Program) :
    Nat → CodeType → Prop
| natural
    {depth : Nat}
    {k : IntKind}
    (hUnsigned : k.isSigned = false) :
    Carried p depth (.number (.int k))
| string
    {depth : Nat} :
    Carried p depth .string
| enum
    {depth : Nat}
    {ident : String}
    {e : EnumItem}
    (hEnum : p.enum? ident = some e)
    (hOther : p.message? ident = none)
    (hDerived : e.attributes.IsDerived) :
    Carried p depth (.named ident)
| struct
    {depth : Nat}
    {ident : String}
    {m : MessageItem}
    (hMessage : p.message? ident = some m)
    (hOther : p.enum? ident = none)
    (hDerived : m.data.attributes.IsDerived)
    (hNames : (m.data.fields.map Prod.fst).Nodup)
    (hFields : ∀ f ∈ m.data.fields, Carried p depth f.2) :
    Carried p (depth + 1) (.named ident)
| map
    {depth : Nat}
    {value : CodeType}
    (hValue : Carried p depth value) :
    Carried p (depth + 1) (.map .string value)
| option
    {depth : Nat}
    {ident : String}
    (hInner : Carried p depth (.named ident)) :
    Carried p depth (.option (.boxed (.named ident)))

theorem isDerived_structItem
    (m : Message TypeRef) :
    (structItem .json m).attributes.IsDerived where
  serialize := by simp [structItem, attributesOf]
  deserialize := by simp [structItem, attributesOf]
  others := by simp [structItem, attributesOf]

theorem isDerived_enumItem
    (e : EnumDecl) :
    (enumItem .json e).attributes.IsDerived := by
  unfold enumItem
  split <;> constructor <;> simp [attributesOf]

/- A message is carried if the types of its fields are. -/
theorem Carried.message
    {ident : String}
    {m : Message TypeRef}
    (hMessage : p.message? ident = some (jsonMessage m))
    (hOther : p.enum? ident = none)
    (hNames : (m.fields.map (Names.fieldIdent ·.name)).Nodup)
    (hFields :
      ∀ f ∈ m.fields, Carried p depth (fieldCodeType f.type)) :
    Carried p (depth + 1) (.named ident) := by
  refine
    .struct hMessage hOther (isDerived_structItem m) ?_ ?_
  · show ((m.fields.map _).map Prod.fst).Nodup
    rwa [List.map_map]
  · exact List.forall_mem_map.mpr hFields

/- Data of a type has a JSON value, which is that data. -/
structure HasJson
    (serde : Serde)
    (p : Program)
    (depth : Nat)
    (type : CodeType)
    (d : Datum)
    (j : Json) : Prop where
  serialize : serde.serialize? p d = some j
  plain : j.Plain depth
  deserialize : serde.deserialize? p type j = some d
  notNull : ∀ ident, type = .named ident → j ≠ .null

section

variable (hWrite : serde.Serializes)
variable (hRead : serde.Deserializes)
include hWrite hRead

theorem exists_hasJson_natural
    {k : IntKind}
    (hUnsigned : k.isSigned = false)
    (word : k.Word) :
    ∃ j,
      HasJson serde p depth (.number (.int k))
        (.number (.int k) word) j := by
  have hValue : k.value word = (BitVec.toNat word : Nat) := by
    rw [IntKind.value, hUnsigned]
    rfl
  refine
    ⟨_, hWrite.integer p k word, ?_, hRead.integer p k word,
      by simp⟩
  rw [hValue]
  exact .natural _

theorem exists_hasJson_variant
    {ident : String}
    {e : EnumItem}
    {v : Variant}
    (hEnum : p.enum? ident = some e)
    (hDerived : e.attributes.IsDerived)
    (hv : v ∈ e.variants) :
    ∃ j,
      HasJson serde p depth (.named ident)
        (.variant ident v.ident) j :=
  ⟨.string v.ident,
    {
      serialize := hWrite.variant p ident e v hEnum hDerived hv
      plain := .string _
      deserialize :=
        hRead.variant p ident e v hEnum hDerived hv
      notNull := nofun
    }⟩

omit hWrite hRead in
/- The members of a struct are found by their names. -/
theorem HasJson.members
    {get : String → Datum}
    {fields : List (String × CodeType)}
    {members : List (String × Json)}
    (h :
      List.Forall₂
        (fun member f =>
          member.1 = f.1 ∧
            HasJson serde p depth f.2 (get f.1) member.2)
        members fields) :
    members.map Prod.fst = fields.map Prod.fst ∧
    (∀ member ∈ members, member.2.Plain depth) ∧
    ∀ f ∈ fields,
      ∃ j, (f.1, j) ∈ members ∧
        serde.deserialize? p f.2 j = some (get f.1) := by
  induction h with
  | nil => exact ⟨rfl, nofun, nofun⟩
  | @cons member f members fields hHead _ ih =>
      rcases member with ⟨name, j⟩
      rcases ih with ⟨hKeys, hPlain, hFound⟩
      rcases hHead with ⟨rfl, hj⟩
      refine ⟨congrArg (f.1 :: ·) hKeys,
        List.forall_mem_cons.mpr ⟨hj.plain, hPlain⟩,
        List.forall_mem_cons.mpr ⟨?_, ?_⟩⟩
      · exact ⟨j, List.mem_cons_self, hj.deserialize⟩
      · intro f' hf'
        rcases hFound f' hf' with ⟨j', hMem, hj'⟩
        exact ⟨j', List.mem_cons_of_mem _ hMem, hj'⟩

/- A struct has its fields as members, in their order. -/
theorem exists_hasJson_struct
    {ident : String}
    {m : MessageItem}
    {get : String → Datum}
    (hMessage : p.message? ident = some m)
    (hDerived : m.data.attributes.IsDerived)
    (hNames : (m.data.fields.map Prod.fst).Nodup)
    (hFields :
      ∀ f ∈ m.data.fields,
        ∃ j, HasJson serde p depth f.2 (get f.1) j) :
    ∃ j,
      HasJson serde p (depth + 1) (.named ident)
        (.struct ident
          (m.data.fields.map fun f => (f.1, get f.1))) j := by
  have hMembers :
      ∃ members : List (String × Json),
        List.Forall₂
          (fun member f =>
            member.1 = f.1 ∧
              HasJson serde p depth f.2 (get f.1) member.2)
          members m.data.fields := by
    apply Likeness.exists_forall₂
    intro f hf
    rcases hFields f hf with ⟨j, hj⟩
    exact ⟨(f.1, j), rfl, hj⟩
  rcases hMembers with ⟨members, hMembers⟩
  rcases HasJson.members hMembers with ⟨hKeys, hPlain, hFound⟩
  refine ⟨.object members, ?_, .object hPlain, ?_, nofun⟩
  · exact
      hWrite.struct p ident m get members hMessage hDerived
        (hMembers.imp fun _ _ h => ⟨h.1, h.2.serialize⟩)
  · exact
      hRead.struct p ident m get members hMessage hDerived
        (hKeys ▸ hNames) hFound

omit hRead in
/- A struct is written field by field, whatever holds them. -/
theorem serialize?_struct
    {ident : String}
    {m : MessageItem}
    {fields : List (String × Datum)}
    {members : List (String × Json)}
    (hMessage : p.message? ident = some m)
    (hDerived : m.data.attributes.IsDerived)
    (hNodup : (fields.map Prod.fst).Nodup)
    (hNames :
      m.data.fields.map Prod.fst = fields.map Prod.fst)
    (hFields :
      List.Forall₂
        (fun member f =>
          member.1 = f.1 ∧
            serde.serialize? p f.2 = some member.2)
        members fields) :
    serde.serialize? p (.struct ident fields) =
      some (.object members) := by
  let get (name : String) : Datum :=
    (fields.lookup name).getD .unit
  let member (name : String) : String × Datum :=
    (name, get name)
  have hFound :
      (fields.map Prod.fst).map member = fields := by
    rw [List.map_map]
    conv_rhs => rw [← List.map_id fields]
    refine List.map_congr_left fun f hf => ?_
    show (f.1, (fields.lookup f.1).getD .unit) = f
    rw [Keyed.lookup_of_mem hNodup hf]
    rfl
  rw [← hFound, List.forall₂_map_right_iff, ← hNames,
    List.forall₂_map_right_iff] at hFields
  have hStruct :=
    hWrite.struct p ident m get members hMessage hDerived
      hFields
  have hSame :
      (m.data.fields.map fun f => (f.1, get f.1)) = fields := by
    rw [← hFound, ← hNames, List.map_map]
    rfl
  rwa [hSame] at hStruct

/- The members of a map are its entries in order. -/
theorem exists_hasJson_map
    {value : CodeType}
    {entries : List (MapKey × Datum)}
    (hAscending : Keyed.Ascending entries)
    (hEntries :
      ∀ e ∈ entries,
        (∃ key, e.1 = .string key) ∧
          ∃ j, HasJson serde p depth value e.2 j) :
    ∃ j,
      HasJson serde p (depth + 1) (.map .string value)
        (.map entries) j := by
  have hMembers :
      ∃ members : List (String × Json),
        List.Forall₂
          (fun m e =>
            e.1 = MapKey.string m.1 ∧
              HasJson serde p depth value e.2 m.2)
          members entries := by
    apply Likeness.exists_forall₂
    intro e he
    rcases hEntries e he with ⟨⟨key, hKey⟩, j, hj⟩
    exact ⟨(key, j), hKey, hj⟩
  rcases hMembers with ⟨members, hMembers⟩
  have hPlain : ∀ m ∈ members, m.2.Plain depth := by
    clear hEntries hAscending
    induction hMembers with
    | nil => exact nofun
    | cons hHead _ ih =>
        exact List.forall_mem_cons.mpr ⟨hHead.2.plain, ih⟩
  refine ⟨.object members, ?_, .object hPlain, ?_, nofun⟩
  · exact
      hWrite.map p entries members
        (hMembers.imp fun _ _ h => ⟨h.1, h.2.serialize⟩)
  · rw [hRead.map p value members entries
      (hMembers.imp fun _ _ h => ⟨h.1, h.2.deserialize⟩),
      Keyed.ofList_of_ascending hAscending]

/- Only what is absent is null. -/
theorem exists_hasJson_option
    {ident : String}
    {d : Datum}
    (hInner :
      ∀ d, p.HasType (.named ident) d →
        ∃ j, HasJson serde p depth (.named ident) d j)
    (h : p.HasType (.option (.boxed (.named ident))) d) :
    ∃ j,
      HasJson serde p depth (.option (.boxed (.named ident)))
        d j := by
  cases h with
  | absent =>
      exact
        ⟨.null, hWrite.absent p, .null, hRead.absent p _,
          nofun⟩
  | @present _ d h =>
      cases h with
      | boxed h =>
          rcases hInner d h with ⟨j, hj⟩
          refine ⟨j, ?_, hj.plain, ?_, nofun⟩
          · rw [hWrite.present, hj.serialize]
          · rw [hRead.present p _ j (hj.notNull ident rfl),
              hRead.boxed, hj.deserialize]
            rfl

/- All data of a type that is carried has a JSON value. -/
theorem Carried.exists_hasJson
    (hType : Carried p depth type) :
    ∀ d, p.HasType type d →
      ∃ j, HasJson serde p depth type d j := by
  induction hType with
  | natural hUnsigned =>
      intro d h
      cases h
      exact exists_hasJson_natural hWrite hRead hUnsigned _
  | string =>
      intro d h
      cases h
      exact
        ⟨_, hWrite.string p _, .string _, hRead.string p _,
          nofun⟩
  | enum hEnum hOther hDerived =>
      intro d h
      cases h with
      | variant hEnum' hVariant =>
          rw [hEnum'] at hEnum
          cases hEnum
          exact
            exists_hasJson_variant hWrite hRead hEnum' hDerived
              hVariant
      | struct hMessage _ =>
          rw [hOther] at hMessage
          cases hMessage
  | struct hMessage hOther hDerived hNames _ ih =>
      intro d h
      cases h with
      | variant hEnum _ =>
          rw [hOther] at hEnum
          cases hEnum
      | struct hMessage' hFields =>
          rw [hMessage'] at hMessage
          cases hMessage
          exact
            exists_hasJson_struct hWrite hRead hMessage'
              hDerived hNames fun f hf => ih f hf _ (hFields f hf)
  | map _ ih =>
      intro d h
      cases h with
      | map hAscending hKeys hValues =>
          apply exists_hasJson_map hWrite hRead hAscending
          intro e he
          refine ⟨?_, ih e.2 (hValues e he)⟩
          rcases e with ⟨key, value⟩
          cases key with
          | int k word => cases hKeys _ he
          | string text => exact ⟨text, rfl⟩
  | option _ ih =>
      intro d h
      exact exists_hasJson_option hWrite hRead ih h

end

end Generated

end TagWire

------------------------------------------------------------
-- Messages as JSON
------------------------------------------------------------

namespace TagWire

namespace Generated

variable {lib : JsonLibrary}
variable {p : Program}
variable {serde : Serde}
variable {ident : String}
variable {m : Message TypeRef}

/- What a message comes to is what the library writes. -/
theorem marshal_jsonMessage
    (hMessage : p.message? ident = some (jsonMessage m))
    (fields : List (String × Datum)) :
    p.marshal lib (.struct ident fields) =
      match lib.write? p (.struct ident fields) with
      | some data => some (.ok data)
      | none => some (.error .malformedJson) := by
  unfold Program.marshal Run.outcome
  simp only [marshalInto, Run.bind_apply, hMessage,
    Run.lift_some, Run.andThen_ok, Run.get_apply, Run.set_apply,
    jsonMessage, runBody, execAll, exec, eval]
  have hSelf :=
    local?_enter ident "self" (.struct ident fields)
  rw [Frame.local?] at hSelf
  rw [Frame.local?, hSelf]
  simp only [Run.lift_some, Run.andThen_ok]
  unfold JsonLibrary.toBytes
  cases lib.write? p (.struct ident fields) <;> rfl

/- What is read of a message is what the library reads. -/
theorem unmarshal_jsonMessage
    (hMessage : p.message? ident = some (jsonMessage m))
    (data : List UInt8) :
    p.unmarshal lib ident data =
      match lib.read? p (.named ident) data with
      | some d => some (.ok d)
      | none => some (.error .malformedJson) := by
  unfold Program.unmarshal Run.outcome
  simp only [unmarshalInto, Run.bind_apply, hMessage,
    Run.lift_some, Run.andThen_ok, Run.set_apply, jsonMessage,
    runBody, execAll, Run.pure_apply]
  rw [eval, Run.bind_apply, eval_var_enter]
  simp only [Run.andThen_ok, Run.bind_apply, Run.get_apply]
  show Option.map _
    (Run.ofExcept (lib.ofBytes p (.named ident) data) _) = _
  unfold JsonLibrary.ofBytes
  cases lib.read? p (.named ident) data <;> rfl

/- The data of a message is a struct with the data of fields. -/
theorem hasType_jsonMessage_iff
    (hMessage : p.message? ident = some (jsonMessage m))
    (hOther : p.enum? ident = none)
    {d : Datum} :
    p.HasType (.named ident) d ↔
      ∃ get : String → Datum,
        (∀ f ∈ m.fields,
          p.HasType (fieldCodeType f.type)
            (get (Names.fieldIdent f.name))) ∧
        d =
          .struct ident
            (m.fields.map fun f =>
              (Names.fieldIdent f.name,
                get (Names.fieldIdent f.name))) := by
  have hFields (get : String → Datum) :
      (jsonMessage m).data.fields.map (fun f => (f.1, get f.1)) =
        m.fields.map fun f =>
          (Names.fieldIdent f.name,
            get (Names.fieldIdent f.name)) :=
    List.map_map
  constructor
  · intro h
    cases h with
    | variant hEnum _ => rw [hOther] at hEnum; cases hEnum
    | @struct _ m' get hMessage' hTypes =>
        rw [hMessage'] at hMessage
        cases hMessage
        exact
          ⟨get, List.forall_mem_map.mp hTypes,
            congrArg (Datum.struct ident) (hFields get)⟩
  · intro h
    rcases h with ⟨get, hTypes, rfl⟩
    rw [← hFields]
    exact .struct hMessage (List.forall_mem_map.mpr hTypes)

/-
  A message whose type is carried, not deeper than the library
  reads, is read back from what it is written as.
-/
theorem Carried.unmarshal_marshal
    (hMessage : p.message? ident = some (jsonMessage m))
    (hType : Carried p recursionLimit (.named ident))
    (hSerialize : serde.Serializes)
    (hDeserialize : serde.Deserializes)
    (hWrite : lib.Writes serde)
    (hRead : lib.Reads serde)
    {d : Datum}
    (hd : p.HasType (.named ident) d) :
    ∃ data,
      p.marshal lib d = some (.ok data) ∧
        p.unmarshal lib ident data = some (.ok d) := by
  rcases hType.exists_hasJson hSerialize hDeserialize d hd with
    ⟨j, hj⟩
  rcases hWrite p d j _ hj.serialize hj.plain with
    ⟨data, hData, hText⟩
  have hBack : lib.read? p (.named ident) data = some d :=
    (hRead p _ j data hj.plain hText).trans hj.deserialize
  refine ⟨data, ?_, ?_⟩
  · have hOther : p.enum? ident = none := by
      cases hType with
      | enum _ hNone _ => rw [hMessage] at hNone; cases hNone
      | struct _ hOther _ _ _ => exact hOther
    cases hd with
    | variant hEnum _ => rw [hOther] at hEnum; cases hEnum
    | struct _ _ => rw [marshal_jsonMessage hMessage, hData]
  · rw [unmarshal_jsonMessage hMessage, hBack]

end Generated

end TagWire

------------------------------------------------------------
-- A Library
------------------------------------------------------------

namespace TagWire

namespace Generated

open Text

instance (a : Attributes) : Decidable a.IsDerived :=
  decidable_of_iff
    ("::dgen::serde::Serialize" ∈ a.derives ∧
      "::dgen::serde::Deserialize" ∈ a.derives ∧
      ∀ other ∈ a.others,
        other = "serde(crate = \"::dgen::serde\")" ∨
          other = "repr(u32)")
    ⟨fun h => ⟨h.1, h.2.1, h.2.2⟩,
      fun h => ⟨h.serialize, h.deserialize, h.others⟩⟩

namespace Program

mutual

/- The JSON value of data, apart from that of floats. -/
def serialize?
    (p : Program) :
    Datum → Option Json
| .number (.int k) word => some (.int (k.value word))
| .string text => some (.string text)
| .variant type ident => do
    let e ← p.enum? type
    if e.attributes.IsDerived ∧
        ident ∈ e.variants.map Variant.ident then
      return .string ident
    else
      none
| .list elements => do
    let elements ← p.serializeElements? elements
    return .array elements
| .map entries => do
    let members ← p.serializeEntries? entries
    return .object members
| .struct type fields => do
    let m ← p.message? type
    if m.data.attributes.IsDerived then
      let members ← p.serializeFields? fields
      return .object members
    else
      none
| .absent => some .null
| .present d => p.serialize? d
| _ => none

def serializeElements?
    (p : Program) :
    List Datum → Option (List Json)
| [] => some []
| d :: rest => do
    let j ← p.serialize? d
    let others ← p.serializeElements? rest
    return j :: others

def serializeEntries?
    (p : Program) :
    List (MapKey × Datum) → Option (List (String × Json))
| [] => some []
| (.string key, d) :: rest => do
    let j ← p.serialize? d
    let others ← p.serializeEntries? rest
    return (key, j) :: others
| _ => none

def serializeFields?
    (p : Program) :
    List (String × Datum) → Option (List (String × Json))
| [] => some []
| (name, d) :: rest => do
    let j ← p.serialize? d
    let others ← p.serializeFields? rest
    return (name, j) :: others

end

/-
  The data of a type from a JSON value, apart from floats and
  from structs that are written as arrays.
-/
def deserialize?
    (p : Program)
    (type : CodeType)
    (j : Json) :
    Option Datum :=
  match type, j with
  | .number (.int k), .int n => do
      let word ← k.word? n
      return .number (.int k) word
  | .string, .string text => some (.string text)
  | .list element, .array elements => do
      let elements ← elements.mapM fun j =>
        p |>.deserialize? element j
      return .list elements
  | .map .string value, .object members => do
      let entries ← members.mapM fun m => do
        let d ← p |>.deserialize? value m.2
        return (MapKey.string m.1, d)
      return .map (Keyed.ofList entries)
  | .option inner, j =>
      match j with
      | .null => some .absent
      | j => do
          let d ← p |>.deserialize? inner j
          return .present d
  | .boxed inner, j => p |>.deserialize? inner j
  | .named type, .string ident => do
      let e ← p.enum? type
      if e.attributes.IsDerived ∧
          ident ∈ e.variants.map Variant.ident then
        return .variant type ident
      else
        none
  | .named type, .object members => do
      let m ← p.message? type
      if m.data.attributes.IsDerived then
        let fields ← m.data.fields.mapM fun f => do
          let j ← members.lookup f.1
          let d ← p |>.deserialize? f.2 j
          return (f.1, d)
        return .struct type fields
      else
        none
  | _, _ => none
partial_fixpoint

attribute [local simp] serialize? serializeEntries?
  serializeFields? deserialize?

end Program

/- What is derived for types without floats. -/
def Serde.derived : Serde where
  serialize? := Program.serialize?
  deserialize? := Program.deserialize?

/- A library that writes without blanks. -/
def JsonLibrary.compact : JsonLibrary where
  write? p d := do
    let j ← p.serialize? d
    return Utf8.encode j.compact
  read? p type data := do
    let part ← JsonPart.ofBytes? data
    let j ← part.json?
    p.deserialize? type j

variable {p : Program}

theorem serializeEntries?_of_forall₂
    {entries : List (MapKey × Datum)}
    {members : List (String × Json)}
    (h :
      List.Forall₂
        (fun m e =>
          e.1 = MapKey.string m.1 ∧
            p.serialize? e.2 = some m.2)
        members entries) :
    p.serializeEntries? entries = some members := by
  induction h with
  | nil => rfl
  | @cons m e members entries hHead _ ih =>
      rcases e with ⟨key, d⟩
      rcases hHead with ⟨rfl, hj⟩
      rw [Program.serializeEntries?, hj, ih]
      rfl

theorem serializeFields?_of_forall₂
    {get : String → Datum}
    {fields : List (String × CodeType)}
    {members : List (String × Json)}
    (h :
      List.Forall₂
        (fun member f =>
          member.1 = f.1 ∧
            p.serialize? (get f.1) = some member.2)
        members fields) :
    p.serializeFields? (fields.map fun f => (f.1, get f.1)) =
      some members := by
  induction h with
  | nil => rfl
  | @cons member f members fields hHead _ ih =>
      rcases member with ⟨name, j⟩
      rcases hHead with ⟨rfl, hj⟩
      rw [List.map_cons, Program.serializeFields?, hj, ih]
      rfl

theorem serializes_derived :
    Serde.derived.Serializes where
  integer p k word := by
    simp only [Serde.derived, Program.serialize?]
  string p text := by
    simp only [Serde.derived, Program.serialize?]
  variant p ident e v hEnum hDerived hv := by
    have hMem : v.ident ∈ e.variants.map Variant.ident :=
      List.mem_map_of_mem hv
    simp only [Serde.derived, Program.serialize?, hEnum]
    show (if _ then _ else _) = _
    rw [if_pos ⟨hDerived, hMem⟩]
    rfl
  map p entries members h := by
    simp only [Serde.derived, Program.serialize?]
    rw [serializeEntries?_of_forall₂ h]
    rfl
  struct p ident m get members hMessage hDerived h := by
    simp only [Serde.derived, Program.serialize?, hMessage]
    show (if _ then _ else _) = _
    rw [if_pos hDerived, serializeFields?_of_forall₂ h]
    rfl
  absent p := by
    simp only [Serde.derived, Program.serialize?]
  present p d := by
    simp only [Serde.derived, Program.serialize?]

/- What is read of all elements is read of them one by one. -/
theorem mapM_eq_some_of_forall₂
    {α β : Type}
    {read? : α → Option β}
    {as : List α}
    {bs : List β}
    (h : List.Forall₂ (fun a b => read? a = some b) as bs) :
    as.mapM read? = some bs := by
  induction h with
  | nil => rfl
  | cons hHead _ ih =>
      rw [List.mapM_cons, hHead, ih]
      rfl

theorem deserializes_derived :
    Serde.derived.Deserializes where
  integer p k word := by
    show p.deserialize? _ _ = _
    rw [Program.deserialize?, IntKind.word?_eq_some_iff.mpr rfl]
    rfl
  string p text := by
    show p.deserialize? _ _ = _
    rw [Program.deserialize?]
  variant p ident e v hEnum hDerived hv := by
    have hMem : v.ident ∈ e.variants.map Variant.ident :=
      List.mem_map_of_mem hv
    show p.deserialize? _ _ = _
    rw [Program.deserialize?, hEnum]
    show (if _ then _ else _) = _
    rw [if_pos ⟨hDerived, hMem⟩]
    rfl
  map p value members entries h := by
    show p.deserialize? _ _ = _
    rw [Program.deserialize?, mapM_eq_some_of_forall₂]
    · rfl
    · refine h.imp fun m e hEntry => ?_
      rcases e with ⟨key, d⟩
      rcases hEntry with ⟨rfl, hd⟩
      show (p.deserialize? value m.2).bind _ = _
      rw [show p.deserialize? value m.2 = some d from hd]
      rfl
  struct p ident m get members hMessage hDerived hNodup h := by
    show p.deserialize? _ _ = _
    rw [Program.deserialize?, hMessage]
    show (if _ then _ else _) = _
    rw [if_pos hDerived, mapM_eq_some_of_forall₂]
    · rfl
    · rw [List.forall₂_map_right_iff, List.forall₂_same]
      intro f hf
      rcases h f hf with ⟨j, hMem, hd⟩
      rw [Keyed.lookup_of_mem hNodup hMem]
      show (p.deserialize? f.2 j).bind _ = _
      rw [show p.deserialize? f.2 j = some (get f.1) from hd]
      rfl
  absent p inner := by
    show p.deserialize? _ _ = _
    rw [Program.deserialize?]
  present p inner j hj := by
    show p.deserialize? _ _ = _
    rw [Program.deserialize?]
    · cases hRead : p.deserialize? inner j <;>
        simp [Serde.derived, hRead]
    · exact hj
  boxed p inner j := by
    show p.deserialize? _ _ = _
    rw [Program.deserialize?]
    rfl

theorem writes_compact :
    JsonLibrary.compact.Writes .derived := by
  intro p d j depth hj hPlain
  refine ⟨_, ?_, Json.isText_compact hPlain⟩
  show (p.serialize? d).bind _ = _
  rw [show p.serialize? d = some j from hj]
  rfl

theorem reads_compact :
    JsonLibrary.compact.Reads .derived := by
  intro p type j data _ hText
  rcases Json.exists_ofBytes? hText with ⟨part, hPart, hJson⟩
  show (JsonPart.ofBytes? data).bind _ = _
  rw [hPart]
  show (part.json?).bind _ = _
  rw [hJson]
  rfl

/- A message is written as its JSON value on one line. -/
theorem marshal_compact
    {ident : String}
    {m : Message TypeRef}
    (hMessage : p.message? ident = some (jsonMessage m))
    {fields : List (String × Datum)}
    {j : Json}
    (hj :
      Serde.derived.serialize? p (.struct ident fields) =
        some j) :
    p.marshal .compact (.struct ident fields) =
      some (.ok (Utf8.encode j.compact)) := by
  have hWrite :
      JsonLibrary.compact.write? p (.struct ident fields) =
        some (Utf8.encode j.compact) := by
    show (p.serialize? (.struct ident fields)).bind _ = _
    rw [show p.serialize? (.struct ident fields) = some j from hj]
    rfl
  rw [marshal_jsonMessage hMessage, hWrite]

end Generated

end TagWire
