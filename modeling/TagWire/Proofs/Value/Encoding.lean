import TagWire.Proofs.Keyed
import TagWire.Proofs.Outcome
import TagWire.Value.Encode

/-
  The encoding of a value in terms of its parts: which parts
  it is put together from, and in which order.

  Main declarations:
    * `Value.induct`
    * `Value.Part`
    * `Value.encodeField_eq`
    * `Value.encode_message_eq_ok_iff`
    * `Value.encodeAs_eq_ok_of_eq_ok`
-/

------------------------------------------------------------
-- Parts of Values
------------------------------------------------------------

namespace TagWire

namespace Value

/-
  To prove something of all values, prove it of each value
  from its elements, entries or fields.
-/
@[elab_as_elim]
theorem induct
    {P : Value → Prop}
    (number : ∀ kind word, P (.number kind word))
    (string : ∀ text, P (.string text))
    (enum : ∀ name variant, P (.enum name variant))
    (list :
      ∀ elements, (∀ v ∈ elements, P v) →
        P (.list elements))
    (map :
      ∀ entries, (∀ e ∈ entries, P e.2) →
        P (.map entries))
    (message :
      ∀ name fields, (∀ f ∈ fields, P f.2) →
        P (.message name fields))
    (v : Value) :
    P v :=
  @Value.rec P
    (fun elements => ∀ v ∈ elements, P v)
    (fun entries => ∀ e ∈ entries, P e.2)
    (fun fields => ∀ f ∈ fields, P f.2)
    (fun e => P e.2)
    (fun f => P f.2)
    number string enum list map message
    (fun _ h => absurd h List.not_mem_nil)
    (fun _ _ hHead hRest => List.forall_mem_cons.mpr ⟨hHead, hRest⟩)
    (fun _ h => absurd h List.not_mem_nil)
    (fun _ _ hHead hRest => List.forall_mem_cons.mpr ⟨hHead, hRest⟩)
    (fun _ h => absurd h List.not_mem_nil)
    (fun _ _ hHead hRest => List.forall_mem_cons.mpr ⟨hHead, hRest⟩)
    (fun _ _ h => h)
    (fun _ _ h => h)
    v

/- The values that occur in a value, itself included. -/
inductive Part
    (w : Value) :
    Value → Prop
| refl : Part w w
| element
    {vs : List Value}
    {v : Value}
    (hMem : v ∈ vs)
    (h : Part w v) :
    Part w (list vs)
| entry
    {entries : List (MapKey × Value)}
    {e : MapKey × Value}
    (hMem : e ∈ entries)
    (h : Part w e.2) :
    Part w (map entries)
| field
    {name : String}
    {fields : List (String × Value)}
    {e : String × Value}
    (hMem : e ∈ fields)
    (h : Part w e.2) :
    Part w (message name fields)

/- In a list are the list and what is in its elements. -/
theorem part_list_iff
    {w : Value}
    {vs : List Value} :
    Part w (list vs) ↔ w = list vs ∨ ∃ v ∈ vs, Part w v := by
  constructor
  · intro h
    cases h with
    | refl => exact Or.inl rfl
    | element hMem h => exact Or.inr ⟨_, hMem, h⟩
  · intro h
    rcases h with rfl | ⟨v, hMem, h⟩
    · exact .refl
    · exact .element hMem h

/- In a map are the map and what is in its values. -/
theorem part_map_iff
    {w : Value}
    {entries : List (MapKey × Value)} :
    Part w (map entries) ↔
      w = map entries ∨ ∃ e ∈ entries, Part w e.2 := by
  constructor
  · intro h
    cases h with
    | refl => exact Or.inl rfl
    | entry hMem h => exact Or.inr ⟨_, hMem, h⟩
  · intro h
    rcases h with rfl | ⟨e, hMem, h⟩
    · exact .refl
    · exact .entry hMem h

/- In a message are itself and what is in its fields. -/
theorem part_message_iff
    {w : Value}
    {name : String}
    {fields : List (String × Value)} :
    Part w (message name fields) ↔
      w = message name fields ∨ ∃ e ∈ fields, Part w e.2 := by
  constructor
  · intro h
    cases h with
    | refl => exact Or.inl rfl
    | field hMem h => exact Or.inr ⟨_, hMem, h⟩
  · intro h
    rcases h with rfl | ⟨e, hMem, h⟩
    · exact .refl
    · exact .field hMem h

end Value

end TagWire

------------------------------------------------------------
-- Fields
------------------------------------------------------------

namespace TagWire

namespace Value

variable {s : ResolvedSchema}

/- A size is encoded as a length is. -/
theorem encodeSize_eq_ok_iff
    {n : Nat}
    {bytes : List UInt8} :
    encodeSize n = .ok bytes ↔ encodeLength n = .ok bytes :=
  Outcome.mapError_eq_ok_iff

/- A set field is its tag and then its value. -/
def encodeSet
    (s : ResolvedSchema)
    (f : Field TypeRef)
    (v : Value) :
    Except CodecError (List UInt8) :=
  if v.isZero s then
    encodeUnset f
  else do
    let bytes ← encodeAs s f.name f.type v
    return f.seq :: bytes

/- A field is encoded from what its name finds. -/
theorem encodeField_eq
    (f : Field TypeRef)
    (fields : List (String × Value)) :
    encodeField s f fields =
      match fields.lookup f.name with
      | some v => encodeSet s f v
      | none => encodeUnset f := by
  induction fields with
  | nil => rw [encodeField, List.lookup_nil]
  | cons e rest ih =>
      rcases e with ⟨name, v⟩
      rw [encodeField, List.lookup_cons]
      by_cases hName : name = f.name
      · rw [if_pos hName, beq_iff_eq.mpr hName.symm]
        rfl
      · rw [if_neg hName, beq_false_of_ne (Ne.symm hName), ih]

/- An unset field that is encoded takes no bytes. -/
theorem encodeUnset_eq_ok_iff
    {f : Field TypeRef}
    {bytes : List UInt8} :
    encodeUnset f = .ok bytes ↔
      f.optional = true ∧ bytes = [] := by
  unfold encodeUnset
  cases f.optional <;> simp [eq_comm]

/- A value of a field is written behind the field's tag. -/
theorem encodeSet_eq_ok_iff
    {f : Field TypeRef}
    {v : Value}
    {bytes : List UInt8} :
    encodeSet s f v = .ok bytes ↔
      (v.isZero s = false ∧
        ∃ inner,
          encodeAs s f.name f.type v = .ok inner ∧
            bytes = f.seq :: inner) ∨
      (v.isZero s = true ∧ f.optional = true ∧ bytes = []) := by
  unfold encodeSet
  cases v.isZero s with
  | true =>
      rw [if_pos rfl, encodeUnset_eq_ok_iff]
      simp
  | false =>
      rw [if_neg Bool.false_ne_true, Outcome.bind_eq_ok_iff]
      simp only [Outcome.pure_eq_ok_iff, true_and,
        Bool.false_eq_true, false_and, or_false]
      constructor
      · intro h
        rcases h with ⟨inner, hInner, rfl⟩
        exact ⟨inner, hInner, rfl⟩
      · intro h
        rcases h with ⟨inner, hInner, rfl⟩
        exact ⟨inner, hInner, rfl⟩

/- A field is encoded when it is set, or may be unset. -/
theorem encodeField_eq_ok_iff
    {f : Field TypeRef}
    {fields : List (String × Value)}
    {bytes : List UInt8} :
    encodeField s f fields = .ok bytes ↔
      (∃ v inner,
        fields.lookup f.name = some v ∧ v.isZero s = false ∧
          encodeAs s f.name f.type v = .ok inner ∧
          bytes = f.seq :: inner) ∨
      ((∀ v, fields.lookup f.name = some v →
          v.isZero s = true) ∧
        f.optional = true ∧ bytes = []) := by
  rw [encodeField_eq]
  cases fields.lookup f.name with
  | none => simp [encodeUnset_eq_ok_iff]
  | some v =>
      simp only [encodeSet_eq_ok_iff]
      cases hZero : v.isZero s <;> simp [hZero]

------------------------------------------------------------
-- Messages
------------------------------------------------------------

/- A message is the encodings of its declared fields. -/
theorem encode_message_eq_ok_iff
    {name : String}
    {fields : List (String × Value)}
    {bytes : List UInt8} :
    (message name fields).encode s = .ok bytes ↔
      ∃ m parts,
        s.message? name = some m ∧
          m.fields.mapM (fun f => encodeField s f fields) =
            .ok parts ∧
          bytes = parts.flatten := by
  rw [encode, encodeFieldsWith]
  split
  · next hNone => simp [hNone]
  · next m hSome =>
      simp only [hSome, Outcome.bind_eq_ok_iff,
        Outcome.pure_eq_ok_iff]
      constructor
      · intro h
        rcases h with ⟨parts, hParts, rfl⟩
        exact ⟨m, parts, rfl, hParts, rfl⟩
      · intro h
        rcases h with ⟨m', parts, hSame, hParts, rfl⟩
        cases hSame
        exact ⟨parts, hParts, rfl⟩

/- A field is encoded alike where its name finds the same. -/
theorem encodeField_congr
    {f : Field TypeRef}
    {fields fields' : List (String × Value)}
    (h : fields.lookup f.name = fields'.lookup f.name) :
    encodeField s f fields = encodeField s f fields' := by
  rw [encodeField_eq, encodeField_eq, h]

/- A field that is not there is unset. -/
theorem encodeField_of_not_mem
    {f : Field TypeRef}
    {fields : List (String × Value)}
    (h : f.name ∉ fields.map Prod.fst) :
    encodeField s f fields = encodeUnset f := by
  rw [encodeField_eq, Keyed.lookup_eq_none_of_not_mem h]

/- An optional field that is not there is left out. -/
theorem encodeField_of_optional
    {f : Field TypeRef}
    {fields : List (String × Value)}
    (hOptional : f.optional = true)
    (h : f.name ∉ fields.map Prod.fst) :
    encodeField s f fields = .ok [] := by
  rw [encodeField_of_not_mem h]
  exact encodeUnset_eq_ok_iff.mpr ⟨hOptional, rfl⟩

/- A field of another name is not what a declared one finds. -/
theorem lookup_cons_of_mem
    {declared : List (Field TypeRef)}
    {name : String}
    (h : name ∉ declared.map Field.name)
    (v : Value)
    (fields : List (String × Value))
    {f : Field TypeRef}
    (hf : f ∈ declared) :
    ((name, v) :: fields).lookup f.name =
      fields.lookup f.name := by
  have hNe : f.name ≠ name := by
    intro hSame
    rcases hSame with rfl
    exact h (List.mem_map_of_mem hf)
  rw [List.lookup_cons, beq_false_of_ne hNe]

/- A field of another name does not matter to some fields. -/
theorem mapM_encodeField_cons
    {declared : List (Field TypeRef)}
    {name : String}
    {v : Value}
    {fields : List (String × Value)}
    (h : name ∉ declared.map Field.name) :
    declared.mapM
        (fun f => encodeField s f ((name, v) :: fields)) =
      declared.mapM (fun f => encodeField s f fields) := by
  apply Outcome.mapM_congr
  intro f hf
  exact encodeField_congr (lookup_cons_of_mem h v fields hf)

/- Fields of different names are encoded in any order. -/
theorem encode_ofList
    {name : String}
    {fields : List (String × Value)}
    (h : (fields.map Prod.fst).Nodup) :
    (message name (Keyed.ofList fields)).encode s =
      (message name fields).encode s := by
  have hSame :
      (fun f => encodeField s f (Keyed.ofList fields)) =
        fun f => encodeField s f fields := by
    funext f
    exact encodeField_congr (Keyed.lookup_ofList_of_nodup h _)
  rw [encode, encode, hSame]

/- Found fields of a message are encoded one by one. -/
theorem encode_message_ofList
    {name : String}
    {m : Message TypeRef}
    {found : List (String × Value)}
    (hMessage : s.message? name = some m)
    (hFound : (found.map Prod.fst).Nodup) :
    (message name (Keyed.ofList found)).encode s =
      (m.fields.mapM (fun f => encodeField s f found)).map
        List.flatten := by
  rw [encode_ofList hFound, encode, encodeFieldsWith, hMessage]
  rfl

/- As a part of another, a message is encoded as on its own. -/
theorem encodeAs_message_eq_ok_iff
    {field name : String}
    {type : ResolvedType}
    {fields : List (String × Value)}
    {bytes : List UInt8} :
    encodeAs s field type (message name fields) = .ok bytes ↔
      ∃ declared,
        type = .named (.message declared) ∧
          (message name fields).encode s = .ok bytes := by
  unfold encodeAs
  split
  · next declared =>
      rw [encode]
      simp
  · next hType =>
      constructor
      · intro h
        cases h
      · intro h
        rcases h with ⟨declared, rfl, _⟩
        exact absurd rfl (hType declared)

------------------------------------------------------------
-- Scalars and Enums
------------------------------------------------------------

/- A number is encoded as its bytes. -/
theorem encodeAs_number_eq_ok_iff
    {field : String}
    {type : ResolvedType}
    {kind : NumKind}
    {word : kind.Word}
    {bytes : List UInt8} :
    encodeAs s field type (number kind word) = .ok bytes ↔
      type = .scalar (.num kind) ∧
        bytes = LittleEndian.encode word := by
  unfold encodeAs
  by_cases hType : type = .scalar (.num kind)
  · simp [hType, eq_comm]
  · simp [hType, mismatch]

/- A string is encoded with its length. -/
theorem encodeAs_string_eq_ok_iff
    {field text : String}
    {type : ResolvedType}
    {bytes : List UInt8} :
    encodeAs s field type (string text) = .ok bytes ↔
      type = .scalar .string ∧ encodeString text = .ok bytes := by
  unfold encodeAs
  by_cases hType : type = .scalar .string
  · simp [hType, Outcome.mapError_eq_ok_iff]
  · simp [hType, mismatch]

/- A variant that is read has a number to be written. -/
theorem exists_idxOf?_of_getElem?
    {variants : List String}
    {index : Nat}
    {variant : String}
    (h : variants[index]? = some variant) :
    ∃ index', variants.idxOf? variant = some index' := by
  cases hIndex : variants.idxOf? variant with
  | some index' => exact ⟨index', rfl⟩
  | none =>
      have hMem := List.mem_of_getElem? h
      exact absurd hMem (List.idxOf?_eq_none_iff.mp hIndex)

/- A variant stands at one place among different ones. -/
theorem idxOf?_of_getElem?
    {variants : List String}
    {index : Nat}
    {variant : String}
    (hNodup : variants.Nodup)
    (h : variants[index]? = some variant) :
    variants.idxOf? variant = some index := by
  rcases List.getElem?_eq_some_iff.mp h with ⟨hLt, rfl⟩
  refine List.idxOf?_eq_some_iff.mpr ⟨hLt, rfl, ?_⟩
  intro j hj hSame
  have hEq := (hNodup.getElem_inj_iff).mp hSame
  omega

/- An enum value is the number of its variant. -/
theorem encodeAs_enum_eq_ok_iff
    {field name variant : String}
    {type : ResolvedType}
    {bytes : List UInt8} :
    encodeAs s field type (enum name variant) = .ok bytes ↔
      ∃ declared e index,
        type = .named (.enum declared) ∧
          s.enum? declared = some e ∧
          e.variants.idxOf? variant = some index ∧
          bytes = LittleEndian.bytes 4 index := by
  unfold encodeAs
  split
  · next declared =>
      cases hEnum : s.enum? declared with
      | none => simp [hEnum]
      | some e =>
          cases hIndex : e.variants.idxOf? variant with
          | none => simp [hEnum, hIndex]
          | some index => simp [hEnum, hIndex, eq_comm]
  · next hType =>
      constructor
      · intro h
        cases h
      · intro h
        rcases h with ⟨declared, _, _, rfl, _⟩
        exact absurd rfl (hType declared)

/- A key is encoded as the integer or the string it is. -/
theorem encodeKey_eq_ok_iff
    {kind : ScalarKind}
    {k : MapKey}
    {bytes : List UInt8} :
    encodeKey kind k = .ok bytes ↔
      (∃ i word,
        kind = .num (.int i) ∧ k = .int i word ∧
          bytes = LittleEndian.encode word) ∨
      (∃ text,
        kind = .string ∧ k = .string text ∧
          encodeString text = .ok bytes) := by
  cases k with
  | int i word =>
      rw [encodeKey]
      by_cases hKind : kind = .num (.int i)
      · rw [if_pos hKind]
        constructor
        · intro h
          cases h
          exact Or.inl ⟨i, word, hKind, rfl, rfl⟩
        · intro h
          rcases h with
            ⟨_, _, _, hKey, rfl⟩ | ⟨_, _, hKey, _⟩
          · cases hKey
            rfl
          · cases hKey
      · rw [if_neg hKind]
        constructor
        · intro h
          cases h
        · intro h
          rcases h with
            ⟨_, _, hKind', hKey, _⟩ | ⟨_, _, hKey, _⟩
          · cases hKey
            exact absurd hKind' hKind
          · cases hKey
  | string text =>
      rw [encodeKey]
      by_cases hKind : kind = .string
      · simp [hKind, Outcome.mapError_eq_ok_iff]
      · simp [hKind]

------------------------------------------------------------
-- Elements and Entries
------------------------------------------------------------

/- A list is its size and then its elements. -/
theorem encodeAs_list_eq_ok_iff
    {field : String}
    {type : ResolvedType}
    {elements : List Value}
    {bytes : List UInt8} :
    encodeAs s field type (list elements) = .ok bytes ↔
      ∃ element size inner,
        type = .list element ∧
          encodeLength elements.length = .ok size ∧
          encodeElements s field element elements =
            .ok inner ∧
          bytes = size ++ inner := by
  unfold encodeAs
  split
  · next element =>
      simp only [Outcome.bind_eq_ok_iff,
        Outcome.pure_eq_ok_iff, encodeSize_eq_ok_iff]
      constructor
      · intro h
        rcases h with ⟨size, hSize, inner, hInner, rfl⟩
        exact ⟨element, size, inner, rfl, hSize, hInner, rfl⟩
      · intro h
        rcases h with
          ⟨_, size, inner, hType, hSize, hInner, rfl⟩
        cases hType
        exact ⟨size, hSize, inner, hInner, rfl⟩
  · next hType =>
      constructor
      · intro h
        cases h
      · intro h
        rcases h with ⟨element, _, _, rfl, _⟩
        exact absurd rfl (hType element)

/- Elements are encoded one behind the other. -/
theorem encodeElements_cons_eq_ok_iff
    {field : String}
    {type : ResolvedType}
    {v : Value}
    {rest : List Value}
    {bytes : List UInt8} :
    encodeElements s field type (v :: rest) = .ok bytes ↔
      ∃ head tail,
        encodeAs s field type v = .ok head ∧
          encodeElements s field type rest = .ok tail ∧
          bytes = head ++ tail := by
  rw [encodeElements]
  simp only [Outcome.bind_eq_ok_iff, Outcome.pure_eq_ok_iff]
  constructor
  · intro h
    rcases h with ⟨head, hHead, tail, hTail, rfl⟩
    exact ⟨head, tail, hHead, hTail, rfl⟩
  · intro h
    rcases h with ⟨head, tail, hHead, hTail, rfl⟩
    exact ⟨head, hHead, tail, hTail, rfl⟩

/- A map is its size and then its entries. -/
theorem encodeAs_map_eq_ok_iff
    {field : String}
    {type : ResolvedType}
    {entries : List (MapKey × Value)}
    {bytes : List UInt8} :
    encodeAs s field type (map entries) = .ok bytes ↔
      ∃ key value size inner,
        type = .map key value ∧
          encodeLength entries.length = .ok size ∧
          encodeEntries s field key value entries =
            .ok inner ∧
          bytes = size ++ inner := by
  unfold encodeAs
  split
  · next key value =>
      simp only [Outcome.bind_eq_ok_iff,
        Outcome.pure_eq_ok_iff, encodeSize_eq_ok_iff]
      constructor
      · intro h
        rcases h with ⟨size, hSize, inner, hInner, rfl⟩
        exact
          ⟨key, value, size, inner, rfl, hSize, hInner, rfl⟩
      · intro h
        rcases h with
          ⟨_, _, size, inner, hType, hSize, hInner, rfl⟩
        cases hType
        exact ⟨size, hSize, inner, hInner, rfl⟩
  · next hType =>
      constructor
      · intro h
        cases h
      · intro h
        rcases h with ⟨key, value, _, _, rfl, _⟩
        exact absurd rfl (hType key value)

/- An entry is its key and then its value. -/
theorem encodeEntries_cons_eq_ok_iff
    {field : String}
    {key : ScalarKind}
    {type : ResolvedType}
    {k : MapKey}
    {v : Value}
    {rest : List (MapKey × Value)}
    {bytes : List UInt8} :
    encodeEntries s field key type ((k, v) :: rest) =
        .ok bytes ↔
      ∃ front head tail,
        encodeKey key k = .ok front ∧
          encodeAs s field type v = .ok head ∧
          encodeEntries s field key type rest = .ok tail ∧
          bytes = front ++ (head ++ tail) := by
  rw [encodeEntries]
  simp only [Outcome.bind_eq_ok_iff, Outcome.pure_eq_ok_iff]
  constructor
  · intro h
    rcases h with
      ⟨front, hKey, head, hHead, tail, hTail, rfl⟩
    exact ⟨front, head, tail, hKey, hHead, hTail,
      List.append_assoc _ _ _⟩
  · intro h
    rcases h with
      ⟨front, head, tail, hKey, hHead, hTail, rfl⟩
    exact ⟨front, hKey, head, hHead, tail, hTail,
      List.append_assoc _ _ _⟩

/- Elements are encoded as those they stand in for are. -/
theorem encodeElements_map
    {s' : ResolvedSchema}
    {field : String}
    {type : ResolvedType}
    {g : Value → Value}
    {elements : List Value}
    (hEach :
      ∀ v ∈ elements,
        encodeAs s' field type (g v) =
          encodeAs s field type v) :
    encodeElements s' field type (elements.map g) =
      encodeElements s field type elements := by
  induction elements with
  | nil => rw [List.map_nil, encodeElements, encodeElements]
  | cons v rest ih =>
      rcases List.forall_mem_cons.mp hEach with
        ⟨hFirst, hOthers⟩
      rw [List.map_cons, encodeElements, encodeElements, hFirst,
        ih hOthers]

/- Entries are encoded as their values are encoded. -/
theorem encodeEntries_map
    {s' : ResolvedSchema}
    {field : String}
    {key : ScalarKind}
    {type : ResolvedType}
    {g : Value → Value}
    {entries : List (MapKey × Value)}
    (hEach :
      ∀ e ∈ entries,
        encodeAs s' field type (g e.2) =
          encodeAs s field type e.2) :
    encodeEntries s' field key type
        (entries.map (Prod.map id g)) =
      encodeEntries s field key type entries := by
  induction entries with
  | nil => rw [List.map_nil, encodeEntries, encodeEntries]
  | cons e rest ih =>
      rcases e with ⟨k, v⟩
      rcases List.forall_mem_cons.mp hEach with
        ⟨hFirst, hOthers⟩
      have hFirst :
          encodeAs s' field type (g v) =
            encodeAs s field type v :=
        hFirst
      rw [List.map_cons, Prod.map_apply, id, encodeEntries,
        encodeEntries, hFirst, ih hOthers]

------------------------------------------------------------
-- Names in Errors
------------------------------------------------------------

/- Elements that are encoded are so under another field. -/
theorem encodeElements_eq_ok_of_forall
    {field field' : String}
    {type : ResolvedType}
    {elements : List Value}
    {bytes : List UInt8}
    (hEach :
      ∀ v ∈ elements, ∀ bytes,
        encodeAs s field type v = .ok bytes →
          encodeAs s field' type v = .ok bytes)
    (h : encodeElements s field type elements = .ok bytes) :
    encodeElements s field' type elements = .ok bytes := by
  induction elements generalizing bytes with
  | nil => exact h
  | cons v rest ih =>
      rw [encodeElements_cons_eq_ok_iff] at h ⊢
      rcases h with ⟨head, tail, hHead, hTail, rfl⟩
      rcases List.forall_mem_cons.mp hEach with
        ⟨hFirst, hOthers⟩
      exact
        ⟨head, tail, hFirst head hHead, ih hOthers hTail, rfl⟩

/- Entries that are encoded are so under another field. -/
theorem encodeEntries_eq_ok_of_forall
    {field field' : String}
    {key : ScalarKind}
    {type : ResolvedType}
    {entries : List (MapKey × Value)}
    {bytes : List UInt8}
    (hEach :
      ∀ e ∈ entries, ∀ bytes,
        encodeAs s field type e.2 = .ok bytes →
          encodeAs s field' type e.2 = .ok bytes)
    (h : encodeEntries s field key type entries = .ok bytes) :
    encodeEntries s field' key type entries = .ok bytes := by
  induction entries generalizing bytes with
  | nil => exact h
  | cons e rest ih =>
      rw [encodeEntries_cons_eq_ok_iff] at h ⊢
      rcases h with
        ⟨front, head, tail, hKey, hHead, hTail, rfl⟩
      rcases List.forall_mem_cons.mp hEach with
        ⟨hFirst, hOthers⟩
      exact
        ⟨front, head, tail, hKey, hFirst head hHead,
          ih hOthers hTail, rfl⟩

/-
  The field that errors speak of does not matter to a value
  that is encoded.
-/
theorem encodeAs_eq_ok_of_eq_ok
    {field field' : String}
    {type : ResolvedType}
    {v : Value}
    {bytes : List UInt8}
    (h : encodeAs s field type v = .ok bytes) :
    encodeAs s field' type v = .ok bytes := by
  induction v using Value.induct
      generalizing type bytes with
  | number kind word =>
      rwa [encodeAs_number_eq_ok_iff] at h ⊢
  | string text =>
      rwa [encodeAs_string_eq_ok_iff] at h ⊢
  | enum name variant =>
      rwa [encodeAs_enum_eq_ok_iff] at h ⊢
  | list elements ih =>
      rw [encodeAs_list_eq_ok_iff] at h ⊢
      rcases h with
        ⟨type, size, inner, hType, hSize, hInner, rfl⟩
      have hInner' :=
        encodeElements_eq_ok_of_forall
          (fun v hv _ hv' => ih v hv hv') hInner
      exact ⟨type, size, inner, hType, hSize, hInner', rfl⟩
  | map entries ih =>
      rw [encodeAs_map_eq_ok_iff] at h ⊢
      rcases h with
        ⟨key, type, size, inner, hType, hSize, hInner, rfl⟩
      have hInner' :=
        encodeEntries_eq_ok_of_forall
          (fun e he _ he' => ih e he he') hInner
      exact
        ⟨key, type, size, inner, hType, hSize, hInner', rfl⟩
  | message name fields _ =>
      rwa [encodeAs_message_eq_ok_iff] at h ⊢

end Value

end TagWire
