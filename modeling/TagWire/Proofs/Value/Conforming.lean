import TagWire.Proofs.Value.Encoding

/-
  Values that are of a type of the schema, and their normal
  form, in which no field has a zero value. Both have the same
  encoding.

  Main declarations:
    * `Value.Conforms`
    * `Value.norm`
    * `Value.lookup_normFields`
    * `Value.encodeAs_norm`
-/

------------------------------------------------------------
-- Values of a Type
------------------------------------------------------------

namespace TagWire

namespace MapKey

/- The kind of scalar that a key is. -/
def kind : MapKey → ScalarKind
| int k _ => .num (.int k)
| string _ => .string

end MapKey

namespace Value

/-
  A value is of a type. A message has declared fields only,
  each of the type declared for it, and need not have them
  all. Enum values and messages carry the name that the type
  refers to.
-/
inductive Conforms
    (s : ResolvedSchema) :
    ResolvedType → Value → Prop
| number
    {kind : NumKind}
    {word : kind.Word} :
    Conforms s (.scalar (.num kind)) (.number kind word)
| string
    {text : String} :
    Conforms s (.scalar .string) (.string text)
| enum
    {name variant : String} :
    Conforms s (.named (.enum name)) (.enum name variant)
| list
    {element : ResolvedType}
    {vs : List Value}
    (hElements : ∀ v ∈ vs, Conforms s element v) :
    Conforms s (.list element) (.list vs)
| map
    {key : ScalarKind}
    {type : ResolvedType}
    {entries : List (MapKey × Value)}
    (hAscending : Keyed.Ascending entries)
    (hKeys : ∀ e ∈ entries, e.1.kind = key)
    (hValues : ∀ e ∈ entries, Conforms s type e.2) :
    Conforms s (.map key type) (.map entries)
| message
    {name : String}
    {m : Message TypeRef}
    {fields : List (String × Value)}
    (hMessage : s.message? name = some m)
    (hName : m.name = name)
    (hAscending : Keyed.Ascending fields)
    (hDeclared :
      ∀ e ∈ fields, e.1 ∈ m.fields.map Field.name)
    (hValues :
      ∀ e ∈ fields, ∀ f ∈ m.fields,
        f.name = e.1 → Conforms s f.type e.2) :
    Conforms s (.named (.message name)) (.message name fields)

end Value

end TagWire

------------------------------------------------------------
-- Normal Forms
------------------------------------------------------------

namespace TagWire

namespace Value

mutual

/- A value without the fields that have zero values. -/
def norm
    (s : ResolvedSchema) :
    Value → Value
| number kind word => number kind word
| string text => string text
| enum name variant => enum name variant
| list elements => list (normElements s elements)
| map entries => map (normEntries s entries)
| message name fields => message name (normFields s fields)

/- The normal forms of elements. -/
def normElements
    (s : ResolvedSchema) :
    List Value → List Value
| [] => []
| v :: rest => norm s v :: normElements s rest

/- Entries with the normal forms of their values. -/
def normEntries
    (s : ResolvedSchema) :
    List (MapKey × Value) → List (MapKey × Value)
| [] => []
| (key, v) :: rest => (key, norm s v) :: normEntries s rest

/- The fields that are not zero, in their normal forms. -/
def normFields
    (s : ResolvedSchema) :
    List (String × Value) → List (String × Value)
| [] => []
| (name, v) :: rest =>
    if v.isZero s then
      normFields s rest
    else
      (name, norm s v) :: normFields s rest

end

variable {s : ResolvedSchema}

theorem normElements_eq
    (elements : List Value) :
    normElements s elements = elements.map (norm s) := by
  induction elements with
  | nil => rw [normElements, List.map_nil]
  | cons v rest ih => rw [normElements, ih, List.map_cons]

theorem normEntries_eq
    (entries : List (MapKey × Value)) :
    normEntries s entries =
      entries.map (Prod.map id (norm s)) := by
  induction entries with
  | nil => rw [normEntries, List.map_nil]
  | cons e rest ih =>
      rcases e with ⟨key, v⟩
      rw [normEntries, ih, List.map_cons]
      rfl

/- A value is zero when its normal form is. -/
theorem isZero_norm
    (v : Value) :
    (v.norm s).isZero s = v.isZero s := by
  cases v with
  | list elements =>
      rw [norm, normElements_eq, isZero, isZero,
        List.isEmpty_map]
  | map entries =>
      rw [norm, normEntries_eq, isZero, isZero,
        List.isEmpty_map]
  | message name fields => rw [norm, isZero, isZero]
  | _ => rw [norm]

/- No field is renamed, and none is added. -/
theorem names_normFields
    (fields : List (String × Value)) :
    ((normFields s fields).map Prod.fst).Sublist
      (fields.map Prod.fst) := by
  induction fields with
  | nil => rw [normFields]
  | cons e rest ih =>
      rcases e with ⟨name, v⟩
      rw [normFields]
      split
      · exact ih.cons name
      · exact ih.cons_cons name

theorem ascending_normFields
    {fields : List (String × Value)}
    (h : Keyed.Ascending fields) :
    Keyed.Ascending (normFields s fields) := by
  have hKeys :
      (fields.map Prod.fst).Pairwise
        (fun a b => compare a b = .lt) :=
    List.pairwise_map.mpr h
  exact List.pairwise_map.mp
    (hKeys.sublist (names_normFields fields))

theorem ascending_normEntries
    {entries : List (MapKey × Value)}
    (h : Keyed.Ascending entries) :
    Keyed.Ascending (normEntries s entries) := by
  rw [normEntries_eq]
  exact List.pairwise_map.mpr h

/- A name finds the normal form of what it found, or of no zero. -/
theorem lookup_normFields
    {fields : List (String × Value)}
    (h : (fields.map Prod.fst).Nodup)
    (name : String) :
    (normFields s fields).lookup name =
      (fields.lookup name).bind fun v =>
        if v.isZero s then none else some (v.norm s) := by
  induction fields with
  | nil =>
      rw [normFields]
      rfl
  | cons e rest ih =>
      rcases e with ⟨name', v⟩
      rcases List.nodup_cons.mp h with ⟨hName, hRest⟩
      rw [normFields, List.lookup_cons]
      cases hSame : name == name' with
      | false =>
          split
          · exact ih hRest
          · rw [List.lookup_cons, hSame]
            exact ih hRest
      | true =>
          obtain rfl := eq_of_beq hSame
          cases hZero : v.isZero s with
          | true =>
              have hNone :=
                Keyed.lookup_eq_none_of_not_mem hName
              simp [ih hRest, hNone, hZero]
          | false => simp [hZero]

/- A set field finds its normal form. -/
theorem lookup_normFields_eq_some_iff
    {fields : List (String × Value)}
    (h : (fields.map Prod.fst).Nodup)
    {name : String}
    {v' : Value} :
    (normFields s fields).lookup name = some v' ↔
      ∃ v, fields.lookup name = some v ∧
        v.isZero s = false ∧ v.norm s = v' := by
  rw [lookup_normFields h]
  cases fields.lookup name with
  | none => simp
  | some v => cases hZero : v.isZero s <;> simp [hZero]

/- A field that is zero or not there finds nothing. -/
theorem lookup_normFields_eq_none_iff
    {fields : List (String × Value)}
    (h : (fields.map Prod.fst).Nodup)
    {name : String} :
    (normFields s fields).lookup name = none ↔
      ∀ v, fields.lookup name = some v →
        v.isZero s = true := by
  rw [lookup_normFields h]
  cases fields.lookup name with
  | none => simp
  | some v => cases hZero : v.isZero s <;> simp [hZero]

------------------------------------------------------------
-- Encodings of Normal Forms
------------------------------------------------------------

/-
  The field of a message whose name finds its normal form is
  encoded alike, since a zero value is as good as none.
-/
theorem encodeField_normFields
    {f : Field TypeRef}
    {fields : List (String × Value)}
    (hNodup : (fields.map Prod.fst).Nodup)
    (hValue :
      ∀ v, fields.lookup f.name = some v →
        encodeAs s f.name f.type (v.norm s) =
          encodeAs s f.name f.type v) :
    encodeField s f (normFields s fields) =
      encodeField s f fields := by
  rw [encodeField_eq, encodeField_eq,
    lookup_normFields hNodup]
  cases hLookup : fields.lookup f.name with
  | none => rfl
  | some v =>
      cases hZero : v.isZero s with
      | true => simp [encodeSet, hZero]
      | false =>
          simp [encodeSet, hZero, isZero_norm, hValue v hLookup]

/- A value is encoded, or fails to be, as its normal form. -/
theorem encodeAs_norm
    {field : String}
    {type : ResolvedType}
    {v : Value}
    (hConforms : Conforms s type v) :
    encodeAs s field type (v.norm s) =
      encodeAs s field type v := by
  induction v using Value.induct generalizing field type with
  | number kind word => rw [norm]
  | string text => rw [norm]
  | enum name variant => rw [norm]
  | list elements ih =>
      cases hConforms with
      | list hElements =>
          rw [norm, normElements_eq, encodeAs, encodeAs,
            List.length_map,
            encodeElements_map fun v hv =>
              ih v hv (hElements v hv)]
  | map entries ih =>
      cases hConforms with
      | map _ _ hValues =>
          rw [norm, normEntries_eq, encodeAs, encodeAs,
            List.length_map,
            encodeEntries_map fun e he =>
              ih e he (hValues e he)]
  | message name fields ih =>
      cases hConforms with
      | @message _ m _ hMessage _ hAscending _ hValues =>
          have hNodup := Keyed.nodup_of_ascending hAscending
          have hFields :
              ∀ f ∈ m.fields,
                encodeField s f (normFields s fields) =
                  encodeField s f fields := by
            intro f hf
            apply encodeField_normFields hNodup
            intro v hLookup
            have hMem := Keyed.mem_of_lookup hLookup
            exact ih _ hMem (hValues _ hMem f hf rfl)
          rw [norm, encodeAs, encodeAs, encodeFieldsWith,
            encodeFieldsWith, hMessage]
          simp only [Outcome.mapM_congr hFields]

end Value

end TagWire
