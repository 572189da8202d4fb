import TagWire.Proofs.Value.Decoding
import TagWire.Proofs.Value.Encoding

/-
  Decoding without cursors: which values can be read off some
  bytes, and which bytes are left behind them. A message that
  is inside another is read from all bytes ahead, while those
  it takes up are as many as it encodes to.

  Main declarations:
    * `Value.Portion`
    * `Value.Reads`
    * `Value.decodeAs_eq_ok_iff`
    * `Value.decode_eq_ok_iff`
-/

------------------------------------------------------------
-- Derivations
------------------------------------------------------------

namespace TagWire

namespace Value

/- What is read in one go: a value, or a part of one. -/
inductive Portion where
| value (type : ResolvedType) (v : Value)
| elements (type : ResolvedType) (vs : List Value)
| entries
    (key : ScalarKind)
    (type : ResolvedType)
    (bound : List (MapKey × Value))
| fields
    (declared : List (Field TypeRef))
    (found : List (String × Value))

/-
  A portion is read off the bytes ahead and leaves the others
  behind. Bindings of a map are in the order in which they are
  read, and so are the fields found.
-/
inductive Reads
    (s : ResolvedSchema) :
    Portion → List UInt8 → List UInt8 → Prop
| number
    {kind : NumKind}
    {word : kind.Word}
    {rest : List UInt8} :
    Reads s (.value (.scalar (.num kind)) (.number kind word))
      (LittleEndian.encode word ++ rest) rest
| string
    {text : String}
    {bytes rest : List UInt8}
    (hText : encodeString text = .ok bytes) :
    Reads s (.value (.scalar .string) (.string text))
      (bytes ++ rest) rest
| enum
    {name variant : String}
    {e : EnumDecl}
    {word : NumKind.Word (.int .uint32)}
    {rest : List UInt8}
    (hEnum : s.enum? name = some e)
    (hVariant : e.variants[word.toNat]? = some variant) :
    Reads s (.value (.named (.enum name)) (.enum e.name variant))
      (LittleEndian.encode word ++ rest) rest
| list
    {element : ResolvedType}
    {vs : List Value}
    {size ahead rest : List UInt8}
    (hSize : encodeLength vs.length = .ok size)
    (hElements : Reads s (.elements element vs) ahead rest) :
    Reads s (.value (.list element) (.list vs))
      (size ++ ahead) rest
| map
    {key : ScalarKind}
    {type : ResolvedType}
    {bound : List (MapKey × Value)}
    {size ahead rest : List UInt8}
    (hSize : encodeLength bound.length = .ok size)
    (hEntries : Reads s (.entries key type bound) ahead rest) :
    Reads s (.value (.map key type) (.map (Keyed.ofList bound)))
      (size ++ ahead) rest
| message
    {name : String}
    {m : Message TypeRef}
    {found : List (String × Value)}
    {bytes taken behind rest : List UInt8}
    (hMessage : s.message? name = some m)
    (hFields :
      Reads s (.fields m.fields found) (taken ++ rest) behind)
    (hEncode :
      (Value.message m.name (Keyed.ofList found)).encode s =
        .ok bytes)
    (hTaken : taken.length = bytes.length) :
    Reads s
      (.value (.named (.message name))
        (.message m.name (Keyed.ofList found)))
      (taken ++ rest) rest
| elementsNil
    {type : ResolvedType}
    {rest : List UInt8} :
    Reads s (.elements type []) rest rest
| elementsCons
    {type : ResolvedType}
    {v : Value}
    {vs : List Value}
    {ahead behind rest : List UInt8}
    (hHead : Reads s (.value type v) ahead behind)
    (hTail : Reads s (.elements type vs) behind rest) :
    Reads s (.elements type (v :: vs)) ahead rest
| entriesNil
    {key : ScalarKind}
    {type : ResolvedType}
    {rest : List UInt8} :
    Reads s (.entries key type []) rest rest
| entriesCons
    {key : ScalarKind}
    {type : ResolvedType}
    {k : MapKey}
    {v : Value}
    {bound : List (MapKey × Value)}
    {bytes ahead behind rest : List UInt8}
    (hKey : encodeKey key k = .ok bytes)
    (hHead : Reads s (.value type v) ahead behind)
    (hTail : Reads s (.entries key type bound) behind rest) :
    Reads s (.entries key type ((k, v) :: bound))
      (bytes ++ ahead) rest
| fieldsNil
    {rest : List UInt8} :
    Reads s (.fields [] []) rest rest
| fieldsSet
    {f : Field TypeRef}
    {declared : List (Field TypeRef)}
    {v : Value}
    {found : List (String × Value)}
    {ahead behind rest : List UInt8}
    (hValue : Reads s (.value f.type v) ahead behind)
    (hOthers : Reads s (.fields declared found) behind rest) :
    Reads s (.fields (f :: declared) ((f.name, v) :: found))
      (f.seq :: ahead) rest
| fieldsUnset
    {f : Field TypeRef}
    {declared : List (Field TypeRef)}
    {found : List (String × Value)}
    {ahead rest : List UInt8}
    (hHead : ahead.head? ≠ some f.seq)
    (hOptional : f.optional = true)
    (hOthers : Reads s (.fields declared found) ahead rest) :
    Reads s (.fields (f :: declared) found) ahead rest

namespace Reads

variable {s : ResolvedSchema}
variable {ahead rest : List UInt8}

/- A number stands ahead as its bytes. -/
theorem number_iff
    {kind : NumKind}
    {v : Value} :
    Reads s (.value (.scalar (.num kind)) v) ahead rest ↔
      ∃ word, v = .number kind word ∧
        ahead = LittleEndian.encode word ++ rest := by
  constructor
  · intro h
    cases h with
    | number => exact ⟨_, rfl, rfl⟩
  · intro h
    rcases h with ⟨word, rfl, rfl⟩
    exact .number

/- A string stands ahead as it is encoded. -/
theorem string_iff
    {v : Value} :
    Reads s (.value (.scalar .string) v) ahead rest ↔
      ∃ text bytes,
        v = .string text ∧ encodeString text = .ok bytes ∧
          ahead = bytes ++ rest := by
  constructor
  · intro h
    cases h with
    | string hText => exact ⟨_, _, rfl, hText, rfl⟩
  · intro h
    rcases h with ⟨text, bytes, rfl, hText, rfl⟩
    exact .string hText

/- An enum value stands ahead as the number of its variant. -/
theorem enum_iff
    {name : String}
    {v : Value} :
    Reads s (.value (.named (.enum name)) v) ahead rest ↔
      ∃ e word variant,
        s.enum? name = some e ∧
          e.variants[word.toNat]? = some variant ∧
          v = .enum e.name variant ∧
          ahead =
            @LittleEndian.encode
                (NumKind.size (.int .uint32)) word ++
              rest := by
  constructor
  · intro h
    cases h with
    | enum hEnum hVariant =>
        exact ⟨_, _, _, hEnum, hVariant, rfl, rfl⟩
  · intro h
    rcases h with
      ⟨e, word, variant, hEnum, hVariant, rfl, rfl⟩
    exact .enum hEnum hVariant

/- A list stands ahead as its size and its elements. -/
theorem list_iff
    {element : ResolvedType}
    {v : Value} :
    Reads s (.value (.list element) v) ahead rest ↔
      ∃ vs size behind,
        v = .list vs ∧ encodeLength vs.length = .ok size ∧
          ahead = size ++ behind ∧
          Reads s (.elements element vs) behind rest := by
  constructor
  · intro h
    cases h with
    | list hSize hElements =>
        exact ⟨_, _, _, rfl, hSize, rfl, hElements⟩
  · intro h
    rcases h with
      ⟨vs, size, behind, rfl, hSize, rfl, hElements⟩
    exact .list hSize hElements

/- A map stands ahead as its size and some bindings. -/
theorem map_iff
    {key : ScalarKind}
    {type : ResolvedType}
    {v : Value} :
    Reads s (.value (.map key type) v) ahead rest ↔
      ∃ bound size behind,
        v = .map (Keyed.ofList bound) ∧
          encodeLength bound.length = .ok size ∧
          ahead = size ++ behind ∧
          Reads s (.entries key type bound) behind rest := by
  constructor
  · intro h
    cases h with
    | map hSize hEntries =>
        exact ⟨_, _, _, rfl, hSize, rfl, hEntries⟩
  · intro h
    rcases h with
      ⟨bound, size, behind, rfl, hSize, rfl, hEntries⟩
    exact .map hSize hEntries

/- A message takes as many bytes ahead as it encodes to. -/
theorem message_iff
    {name : String}
    {v : Value} :
    Reads s (.value (.named (.message name)) v) ahead rest ↔
      ∃ m found behind bytes taken,
        s.message? name = some m ∧
          v = .message m.name (Keyed.ofList found) ∧
          Reads s (.fields m.fields found) ahead behind ∧
          v.encode s = .ok bytes ∧
          taken.length = bytes.length ∧
          ahead = taken ++ rest := by
  constructor
  · intro h
    cases h with
    | message hMessage hFields hEncode hTaken =>
        exact ⟨_, _, _, _, _, hMessage, rfl, hFields, hEncode,
          hTaken, rfl⟩
  · intro h
    rcases h with
      ⟨m, found, behind, bytes, taken, hMessage, rfl,
       hFields, hEncode, hTaken, rfl⟩
    exact .message hMessage hFields hEncode hTaken

theorem elements_nil_iff
    {type : ResolvedType} :
    Reads s (.elements type []) ahead rest ↔
      ahead = rest := by
  constructor
  · intro h
    cases h
    rfl
  · intro h
    rcases h with rfl
    exact .elementsNil

theorem elements_cons_iff
    {type : ResolvedType}
    {v : Value}
    {vs : List Value} :
    Reads s (.elements type (v :: vs)) ahead rest ↔
      ∃ behind,
        Reads s (.value type v) ahead behind ∧
          Reads s (.elements type vs) behind rest := by
  constructor
  · intro h
    cases h with
    | elementsCons hHead hTail => exact ⟨_, hHead, hTail⟩
  · intro h
    rcases h with ⟨behind, hHead, hTail⟩
    exact .elementsCons hHead hTail

theorem entries_nil_iff
    {key : ScalarKind}
    {type : ResolvedType} :
    Reads s (.entries key type []) ahead rest ↔
      ahead = rest := by
  constructor
  · intro h
    cases h
    rfl
  · intro h
    rcases h with rfl
    exact .entriesNil

theorem entries_cons_iff
    {key : ScalarKind}
    {type : ResolvedType}
    {e : MapKey × Value}
    {bound : List (MapKey × Value)} :
    Reads s (.entries key type (e :: bound)) ahead rest ↔
      ∃ bytes middle behind,
        encodeKey key e.1 = .ok bytes ∧
          ahead = bytes ++ middle ∧
          Reads s (.value type e.2) middle behind ∧
          Reads s (.entries key type bound) behind rest := by
  constructor
  · intro h
    cases h with
    | entriesCons hKey hHead hTail =>
        exact ⟨_, _, _, hKey, rfl, hHead, hTail⟩
  · intro h
    rcases h with
      ⟨bytes, middle, behind, hKey, rfl, hHead, hTail⟩
    exact .entriesCons hKey hHead hTail

theorem fields_nil_iff
    {found : List (String × Value)} :
    Reads s (.fields [] found) ahead rest ↔
      found = [] ∧ ahead = rest := by
  constructor
  · intro h
    cases h
    exact ⟨rfl, rfl⟩
  · intro h
    rcases h with ⟨rfl, rfl⟩
    exact .fieldsNil

/- A declared field has its tag ahead, or is left out. -/
theorem fields_cons_iff
    {f : Field TypeRef}
    {declared : List (Field TypeRef)}
    {found : List (String × Value)} :
    Reads s (.fields (f :: declared) found) ahead rest ↔
      (∃ v others middle behind,
        found = (f.name, v) :: others ∧
          ahead = f.seq :: middle ∧
          Reads s (.value f.type v) middle behind ∧
          Reads s (.fields declared others) behind rest) ∨
      (ahead.head? ≠ some f.seq ∧ f.optional = true ∧
        Reads s (.fields declared found) ahead rest) := by
  constructor
  · intro h
    cases h with
    | fieldsSet hValue hOthers =>
        exact Or.inl ⟨_, _, _, _, rfl, rfl, hValue, hOthers⟩
    | fieldsUnset hHead hOptional hOthers =>
        exact Or.inr ⟨hHead, hOptional, hOthers⟩
  · intro h
    rcases h with
      ⟨v, others, middle, behind, rfl, rfl, hValue, hOthers⟩
       | ⟨hHead, hOptional, hOthers⟩
    · exact .fieldsSet hValue hOthers
    · exact .fieldsUnset hHead hOptional hOthers

end Reads

/-
  What the decoder of a name gives: a message of its
  declaration, with the fields that are read off the bytes.
-/
def Decodes
    (s : ResolvedSchema)
    (name : String)
    (data : List UInt8)
    (v : Value) : Prop :=
  ∃ m found rest,
    s.message? name = some m ∧
      v = message m.name (Keyed.ofList found) ∧
      Reads s (.fields m.fields found) data rest

end Value

end TagWire

------------------------------------------------------------
-- Readers of Parts
------------------------------------------------------------

namespace TagWire

namespace Value

open Reader

variable {s : ResolvedSchema}
variable {nested : MessageDecoder}
variable {c c' : Cursor}

/- A key is read exactly where it was written. -/
theorem decodeKey_eq_ok_iff
    {kind : ScalarKind}
    {k : MapKey} :
    decodeKey kind c = (.ok k, c') ↔
      ∃ bytes, encodeKey kind k = .ok bytes ∧
        c.Passes bytes c' := by
  unfold decodeKey wire
  simp only [encodeKey_eq_ok_iff]
  cases kind with
  | string =>
      simp only [bind_eq_ok_iff, mapError_eq_ok_iff,
        pure_eq_ok_iff, string_eq_ok_iff]
      constructor
      · intro h
        rcases h with
          ⟨text, d, ⟨bytes, hText, hPasses⟩, rfl, rfl⟩
        exact
          ⟨bytes, Or.inr ⟨text, trivial, rfl, hText⟩, hPasses⟩
      · intro h
        rcases h with
          ⟨bytes, ⟨_, _, hKind, _⟩ | ⟨text, _, rfl, hText⟩,
           hPasses⟩
        · cases hKind
        · exact ⟨text, c', ⟨bytes, hText, hPasses⟩, rfl, rfl⟩
  | num kind =>
      cases kind with
      | float kind => simp [fail]
      | int kind =>
          simp only [bind_eq_ok_iff, mapError_eq_ok_iff,
            pure_eq_ok_iff, number_eq_ok_iff]
          constructor
          · intro h
            rcases h with ⟨word, d, hPasses, rfl, rfl⟩
            exact
              ⟨_, Or.inl ⟨kind, word, rfl, rfl, rfl⟩, hPasses⟩
          · intro h
            rcases h with
              ⟨bytes, ⟨_, word, hKind, rfl, rfl⟩ | ⟨_,
               hKind, _⟩, hPasses⟩
            · cases hKind
              exact ⟨word, c', hPasses, rfl, rfl⟩
            · cases hKind

/- A scalar is read exactly where it was written. -/
theorem decodeScalar_eq_ok_iff
    {kind : ScalarKind}
    {v : Value} :
    decodeScalar kind c = (.ok v, c') ↔
      c'.data = c.data ∧
        Reads s (.value (.scalar kind) v)
          c.remaining c'.remaining := by
  unfold decodeScalar wire
  cases kind with
  | num kind =>
      simp only [bind_eq_ok_iff, mapError_eq_ok_iff,
        pure_eq_ok_iff, number_eq_ok_iff, Reads.number_iff]
      constructor
      · intro h
        rcases h with ⟨word, d, hPasses, rfl, rfl⟩
        exact
          ⟨hPasses.data_eq, word, rfl, hPasses.remaining_eq⟩
      · intro h
        rcases h with ⟨hData, word, rfl, hAhead⟩
        exact ⟨word, c', ⟨hData, hAhead⟩, rfl, rfl⟩
  | string =>
      simp only [bind_eq_ok_iff, mapError_eq_ok_iff,
        pure_eq_ok_iff, string_eq_ok_iff, Reads.string_iff]
      constructor
      · intro h
        rcases h with
          ⟨text, d, ⟨bytes, hText, hPasses⟩, rfl, rfl⟩
        exact ⟨hPasses.data_eq, text, bytes, rfl, hText,
          hPasses.remaining_eq⟩
      · intro h
        rcases h with
          ⟨hData, text, bytes, rfl, hText, hAhead⟩
        exact
          ⟨text, c', ⟨bytes, hText, ⟨hData, hAhead⟩⟩, rfl, rfl⟩

/- An enum value is read from the number of its variant. -/
theorem decodeEnum_eq_ok_iff
    {name : String}
    {v : Value} :
    decodeEnum s name c = (.ok v, c') ↔
      c'.data = c.data ∧
        Reads s (.value (.named (.enum name)) v)
          c.remaining c'.remaining := by
  rw [Reads.enum_iff]
  unfold decodeEnum wire
  cases hFound : s.enum? name with
  | none =>
      constructor
      · intro h
        exact absurd h fail_ne_ok
      · intro h
        rcases h with ⟨_, e, _, _, hEnum, _⟩
        cases hEnum
  | some e =>
      simp only [bind_eq_ok_iff, mapError_eq_ok_iff,
        number_eq_ok_iff]
      constructor
      · intro h
        rcases h with ⟨word, d, hPasses, hRest⟩
        cases hVariant : e.variants[word.toNat]? with
        | none =>
            rw [hVariant] at hRest
            exact absurd hRest fail_ne_ok
        | some variant =>
            rw [hVariant] at hRest
            rcases pure_eq_ok_iff.mp hRest with ⟨rfl, rfl⟩
            exact ⟨hPasses.data_eq, e, word, variant, rfl,
              hVariant, rfl, hPasses.remaining_eq⟩
      · intro h
        rcases h with
          ⟨hData, _, word, variant, hEnum, hVariant, rfl,
           hAhead⟩
        cases hEnum
        refine ⟨word, c', ⟨hData, hAhead⟩, ?_⟩
        rw [hVariant]
        rfl

/- A message inside another takes what its encoding takes. -/
theorem decodeNested_eq_ok_iff
    {name : String}
    {v : Value} :
    decodeNested s nested name c = (.ok v, c') ↔
      nested name c.remaining = .ok v ∧
        ∃ bytes taken,
          v.encode s = .ok bytes ∧
            taken.length = bytes.length ∧
            c.Passes taken c' := by
  unfold decodeNested wire
  simp only [bind_eq_ok_iff, lookahead_eq_ok_iff,
    ofExcept_eq_ok_iff, mapError_eq_ok_iff, pure_eq_ok_iff]
  constructor
  · intro h
    rcases h with
      ⟨_, _, ⟨rfl, rfl⟩, _, _, ⟨hNested, rfl⟩, bytes, _,
       ⟨hEncode, rfl⟩, _, d, hSkip, rfl, rfl⟩
    rcases skip_eq_ok_iff.mp hSkip with ⟨taken, hTaken⟩
    exact ⟨hNested, bytes, taken, hEncode, hTaken⟩
  · intro h
    rcases h with ⟨hNested, bytes, taken, hEncode, hTaken⟩
    exact ⟨_, c, ⟨rfl, rfl⟩, v, c, ⟨hNested, rfl⟩, bytes, c,
      ⟨hEncode, rfl⟩, (), c', skip_eq_ok_iff.mpr ⟨taken, hTaken⟩,
      rfl, rfl⟩

/- A list is its size and then as many elements. -/
theorem decodeAs_list_eq_ok_iff
    {element : ResolvedType}
    {v : Value} :
    decodeAs s nested (.list element) c = (.ok v, c') ↔
      ∃ vs size d,
        v = list vs ∧ encodeLength vs.length = .ok size ∧
          c.Passes size d ∧
          (decodeAs s nested element).times vs.length d =
            (.ok vs, c') := by
  rw [decodeAs, wire]
  simp only [bind_eq_ok_iff, mapError_eq_ok_iff,
    length_eq_ok_iff, pure_eq_ok_iff]
  constructor
  · intro h
    rcases h with
      ⟨n, d, ⟨size, hSize, hPasses⟩, vs, d', hElements, rfl,
       rfl⟩
    obtain rfl := length_of_times_eq_ok hElements
    exact ⟨vs, size, d, rfl, hSize, hPasses, hElements⟩
  · intro h
    rcases h with
      ⟨vs, size, d, rfl, hSize, hPasses, hElements⟩
    exact ⟨vs.length, d, ⟨size, hSize, hPasses⟩, vs, c',
      hElements, rfl, rfl⟩

/- Read the key of an entry and then its value. -/
def decodeEntry
    (s : ResolvedSchema)
    (nested : MessageDecoder)
    (key : ScalarKind)
    (type : ResolvedType) :
    Reader CodecError (MapKey × Value) := do
  let k ← decodeKey key
  let v ← decodeAs s nested type
  return (k, v)

theorem decodeEntry_eq_ok_iff
    {key : ScalarKind}
    {type : ResolvedType}
    {e : MapKey × Value} :
    decodeEntry s nested key type c = (.ok e, c') ↔
      ∃ bytes d,
        encodeKey key e.1 = .ok bytes ∧ c.Passes bytes d ∧
          decodeAs s nested type d = (.ok e.2, c') := by
  unfold decodeEntry
  simp only [bind_eq_ok_iff, decodeKey_eq_ok_iff,
    pure_eq_ok_iff]
  constructor
  · intro h
    rcases h with
      ⟨k, d, ⟨bytes, hKey, hPasses⟩, v, d', hValue, rfl,
       rfl⟩
    exact ⟨bytes, d, hKey, hPasses, hValue⟩
  · intro h
    rcases h with ⟨bytes, d, hKey, hPasses, hValue⟩
    exact ⟨e.1, d, ⟨bytes, hKey, hPasses⟩, e.2, c', hValue,
      rfl, rfl⟩

/- A map is its size and then as many bindings. -/
theorem decodeAs_map_eq_ok_iff
    {key : ScalarKind}
    {type : ResolvedType}
    {v : Value} :
    decodeAs s nested (.map key type) c = (.ok v, c') ↔
      ∃ bound size d,
        v = map (Keyed.ofList bound) ∧
          encodeLength bound.length = .ok size ∧
          c.Passes size d ∧
          (decodeEntry s nested key type).times
            bound.length d = (.ok bound, c') := by
  have hEntry :
      decodeAs s nested (.map key type) = do
        let size ← wire Reader.length
        let bound ←
          (decodeEntry s nested key type).times size
        return map (Keyed.ofList bound) := by
    rfl
  rw [hEntry]
  unfold wire
  simp only [bind_eq_ok_iff, mapError_eq_ok_iff,
    length_eq_ok_iff, pure_eq_ok_iff]
  constructor
  · intro h
    rcases h with
      ⟨n, d, ⟨size, hSize, hPasses⟩, bound, d', hEntries,
       rfl, rfl⟩
    obtain rfl := length_of_times_eq_ok hEntries
    exact ⟨bound, size, d, rfl, hSize, hPasses, hEntries⟩
  · intro h
    rcases h with
      ⟨bound, size, d, rfl, hSize, hPasses, hEntries⟩
    exact ⟨bound.length, d, ⟨size, hSize, hPasses⟩, bound, c',
      hEntries, rfl, rfl⟩

end Value

end TagWire

------------------------------------------------------------
-- Decoding and Deriving
------------------------------------------------------------

namespace TagWire

namespace Value

open Reader

variable {s : ResolvedSchema}
variable {nested : MessageDecoder}

/- What is left behind was the end of what was ahead. -/
theorem Reads.suffix
    {p : Portion}
    {ahead rest : List UInt8}
    (h : Reads s p ahead rest) :
    rest <:+ ahead := by
  induction h with
  | number => exact List.suffix_append _ _
  | string _ => exact List.suffix_append _ _
  | enum _ _ => exact List.suffix_append _ _
  | list _ _ ih => exact ih.trans (List.suffix_append _ _)
  | map _ _ ih => exact ih.trans (List.suffix_append _ _)
  | message _ _ _ _ _ => exact List.suffix_append _ _
  | elementsNil => exact List.suffix_refl _
  | elementsCons _ _ ihHead ihTail => exact ihTail.trans ihHead
  | entriesNil => exact List.suffix_refl _
  | entriesCons _ _ _ ihHead ihTail =>
      exact (ihTail.trans ihHead).trans (List.suffix_append _ _)
  | fieldsNil => exact List.suffix_refl _
  | fieldsSet _ _ ihValue ihOthers =>
      exact (ihOthers.trans ihValue).trans
        (List.suffix_cons _ _)
  | fieldsUnset _ _ _ ih => exact ih

/- The fields found are declared, and in that order. -/
theorem Reads.names
    {declared : List (Field TypeRef)}
    {found : List (String × Value)}
    {ahead rest : List UInt8}
    (h : Reads s (.fields declared found) ahead rest) :
    (found.map Prod.fst).Sublist (declared.map Field.name) := by
  generalize hPortion : Portion.fields declared found = p at h
  induction h generalizing declared found with
  | fieldsNil =>
      cases hPortion
      exact List.Sublist.refl _
  | fieldsSet _ _ _ ih =>
      cases hPortion
      exact (ih rfl).cons_cons _
  | fieldsUnset _ _ _ ih =>
      cases hPortion
      exact (ih rfl).cons _
  | _ => cases hPortion

/- There is a cursor where a derivation leaves off. -/
theorem Reads.exists_cursor
    {p : Portion}
    {c : Cursor}
    {rest : List UInt8}
    (h : Reads s p c.remaining rest) :
    ∃ d : Cursor, d.data = c.data ∧ d.remaining = rest ∧
      d.remaining.length ≤ c.remaining.length := by
  rcases h.suffix with ⟨bytes, hBytes⟩
  rcases Cursor.exists_passes hBytes.symm with
    ⟨d, hPasses, rfl⟩
  have hLength := hPasses.length_remaining_eq
  exact ⟨d, hPasses.data_eq, rfl, by omega⟩

/-
  A reader goes by the derivations of a portion, as long as
  few bytes remain.
-/
def Derives
    {α : Type}
    (s : ResolvedSchema)
    (n : Nat)
    (r : Reader CodecError α)
    (portion : α → Portion) : Prop :=
  ∀ (c c' : Cursor) (a : α), c.remaining.length < n →
    (r c = (.ok a, c') ↔
      c'.data = c.data ∧
        Reads s (portion a) c.remaining c'.remaining)

/- A reader of values makes a reader of elements. -/
theorem derives_times_elements
    {n : Nat}
    {r : Reader CodecError Value}
    {type : ResolvedType}
    (hr : Derives s n r (.value type))
    {c c' : Cursor}
    {vs : List Value}
    (hc : c.remaining.length < n) :
    r.times vs.length c = (.ok vs, c') ↔
      c'.data = c.data ∧
        Reads s (.elements type vs) c.remaining
          c'.remaining := by
  induction vs generalizing c with
  | nil =>
      rw [List.length_nil, times_zero_eq_ok_iff,
        Reads.elements_nil_iff]
      exact (and_iff_right rfl).trans Cursor.eq_iff
  | cons v vs ih =>
      rw [List.length_cons, times_succ_eq_ok_iff,
        Reads.elements_cons_iff]
      constructor
      · intro h
        rcases h with ⟨_, _, d, hSame, hHead, hTail⟩
        cases hSame
        rcases (hr c d v hc).mp hHead with ⟨hData, hReads⟩
        have hLength := hReads.suffix.length_le
        obtain ⟨hData', hReads'⟩ := (ih (by omega)).mp hTail
        exact ⟨hData'.trans hData, _, hReads, hReads'⟩
      · intro h
        rcases h with ⟨hData, behind, hHead, hTail⟩
        rcases hHead.exists_cursor with
          ⟨d, hData', rfl, hLe⟩
        exact
          ⟨v, vs, d, rfl, (hr c d v hc).mpr ⟨hData', hHead⟩,
            (ih (by omega)).mpr
              ⟨hData.trans hData'.symm, hTail⟩⟩

/- A reader of values makes a reader of bindings. -/
theorem derives_times_entries
    {n : Nat}
    {key : ScalarKind}
    {type : ResolvedType}
    (hr :
      Derives s n (decodeAs s nested type) (.value type))
    {c c' : Cursor}
    {bound : List (MapKey × Value)}
    (hc : c.remaining.length < n) :
    (decodeEntry s nested key type).times bound.length c =
        (.ok bound, c') ↔
      c'.data = c.data ∧
        Reads s (.entries key type bound) c.remaining
          c'.remaining := by
  induction bound generalizing c with
  | nil =>
      rw [List.length_nil, times_zero_eq_ok_iff,
        Reads.entries_nil_iff]
      exact (and_iff_right rfl).trans Cursor.eq_iff
  | cons e bound ih =>
      rw [List.length_cons, times_succ_eq_ok_iff,
        Reads.entries_cons_iff]
      simp only [decodeEntry_eq_ok_iff]
      constructor
      · intro h
        rcases h with
          ⟨_, _, d', hSame, ⟨bytes, d, hKey, hPasses,
           hHead⟩, hTail⟩
        cases hSame
        have hLe := hPasses.length_remaining_eq
        obtain ⟨hData, hReads⟩ :=
          (hr d d' e.2 (by omega)).mp hHead
        have hLength := hReads.suffix.length_le
        obtain ⟨hData', hReads'⟩ := (ih (by omega)).mp hTail
        exact
          ⟨(hData'.trans hData).trans hPasses.data_eq, bytes,
            _, _, hKey, hPasses.remaining_eq, hReads, hReads'⟩
      · intro h
        rcases h with
          ⟨hData, bytes, middle, behind, hKey, hAhead,
           hHead, hTail⟩
        rcases Cursor.exists_passes hAhead with
          ⟨d, hPasses, rfl⟩
        have hLe := hPasses.length_remaining_eq
        rcases hHead.exists_cursor with
          ⟨d', hData', rfl, hLe'⟩
        refine
          ⟨e, bound, d', rfl, ⟨bytes, d, hKey, hPasses, ?_⟩, ?_⟩
        · exact (hr d d' e.2 (by omega)).mpr ⟨hData', hHead⟩
        · refine (ih (by omega)).mpr ⟨?_, hTail⟩
          rw [hData, hData', hPasses.data_eq]

/-
  If the decoder of messages inside goes by the derivations on
  few bytes, so does the reader of each type.
-/
theorem derives_decodeAs
    {n : Nat}
    (hNested :
      ∀ name data v, data.length < n →
        (nested name data = .ok v ↔ Decodes s name data v))
    (type : ResolvedType) :
    Derives s n (decodeAs s nested type) (.value type) := by
  induction type with
  | scalar kind =>
      intro c c' v _
      exact decodeScalar_eq_ok_iff
  | named reference =>
      intro c c' v hc
      cases reference with
      | enum name => exact decodeEnum_eq_ok_iff
      | message name =>
          rw [decodeAs, decodeNested_eq_ok_iff,
            hNested name c.remaining v hc, Reads.message_iff]
          constructor
          · intro h
            rcases h with
              ⟨⟨m, found, behind, hMessage, rfl, hFields⟩,
               bytes, taken, hEncode, hTaken, hPasses⟩
            exact
              ⟨hPasses.data_eq, m, found, behind, bytes, taken,
                hMessage, rfl, hFields, hEncode, hTaken,
                hPasses.remaining_eq⟩
          · intro h
            rcases h with
              ⟨hData, m, found, behind, bytes, taken,
               hMessage, rfl, hFields, hEncode, hTaken,
               hAhead⟩
            exact
              ⟨⟨m, found, behind, hMessage, rfl, hFields⟩,
                bytes, taken, hEncode, hTaken, ⟨hData, hAhead⟩⟩
  | list element ih =>
      intro c c' v hc
      rw [decodeAs_list_eq_ok_iff, Reads.list_iff]
      constructor
      · intro h
        rcases h with
          ⟨vs, size, d, rfl, hSize, hPasses, hElements⟩
        have hLe := hPasses.length_remaining_eq
        obtain ⟨hData, hReads⟩ :=
          (derives_times_elements ih (by omega)).mp hElements
        exact
          ⟨hData.trans hPasses.data_eq, vs, size, _, rfl, hSize,
            hPasses.remaining_eq, hReads⟩
      · intro h
        rcases h with
          ⟨hData, vs, size, behind, rfl, hSize, hAhead,
           hElements⟩
        rcases Cursor.exists_passes hAhead with
          ⟨d, hPasses, rfl⟩
        have hLe := hPasses.length_remaining_eq
        refine
          ⟨vs, size, d, rfl, hSize, hPasses,
            (derives_times_elements ih (by omega)).mpr
              ⟨?_, hElements⟩⟩
        rw [hData, hPasses.data_eq]
  | map key type ih =>
      intro c c' v hc
      rw [decodeAs_map_eq_ok_iff, Reads.map_iff]
      constructor
      · intro h
        rcases h with
          ⟨bound, size, d, rfl, hSize, hPasses, hEntries⟩
        have hLe := hPasses.length_remaining_eq
        obtain ⟨hData, hReads⟩ :=
          (derives_times_entries ih (by omega)).mp hEntries
        exact
          ⟨hData.trans hPasses.data_eq, bound, size, _, rfl,
            hSize, hPasses.remaining_eq, hReads⟩
      · intro h
        rcases h with
          ⟨hData, bound, size, behind, rfl, hSize, hAhead,
           hEntries⟩
        rcases Cursor.exists_passes hAhead with
          ⟨d, hPasses, rfl⟩
        have hLe := hPasses.length_remaining_eq
        refine
          ⟨bound, size, d, rfl, hSize, hPasses,
            (derives_times_entries ih (by omega)).mpr
              ⟨?_, hEntries⟩⟩
        rw [hData, hPasses.data_eq]

/- The body of a message is read by the derivations. -/
theorem decodeBody_eq_ok_iff
    {n : Nat}
    (hNested :
      ∀ name data v, data.length < n →
        (nested name data = .ok v ↔ Decodes s name data v))
    {declared : List (Field TypeRef)}
    {found : List (String × Value)}
    {c : Cursor}
    (hc : c.remaining.length ≤ n) :
    (∃ c', decodeBody s nested declared c =
        (.ok found, c')) ↔
      ∃ rest,
        Reads s (.fields declared found) c.remaining rest := by
  induction declared generalizing found c with
  | nil =>
      obtain ⟨d, hBody⟩ :
          ∃ d, decodeBody s nested [] c = (.ok [], d) :=
        decodeBody_nil_eq c
      rw [hBody]
      simp only [Reads.fields_nil_iff]
      constructor
      · intro h
        rcases h with ⟨_, hSame⟩
        cases hSame
        exact ⟨_, rfl, rfl⟩
      · intro h
        rcases h with ⟨rest, rfl, _⟩
        exact ⟨d, rfl⟩
  | cons f declared ih =>
      simp only [decodeBody_cons_eq_ok_iff,
        Reads.fields_cons_iff]
      constructor
      · intro h
        rcases h with
          ⟨c', ⟨d, v, e, others, hPasses, hValue, hOthers,
           rfl⟩ | ⟨hHead, hOptional, hOthers⟩⟩
        · have hLe := hPasses.length_remaining_eq
          rw [List.length_singleton] at hLe
          obtain ⟨hData, hReads⟩ :=
            (derives_decodeAs hNested f.type d e v
              (by omega)).mp hValue
          have hLength := hReads.suffix.length_le
          obtain ⟨rest, hRest⟩ :=
            (ih (by omega)).mp ⟨c', hOthers⟩
          exact
            ⟨rest, Or.inl ⟨v, others, _, _, rfl,
              hPasses.remaining_eq, hReads, hRest⟩⟩
        · rcases (ih hc).mp ⟨c', hOthers⟩ with ⟨rest, hRest⟩
          exact ⟨rest, Or.inr ⟨hHead, hOptional, hRest⟩⟩
      · intro h
        rcases h with
          ⟨rest, ⟨v, others, middle, behind, rfl, hAhead,
           hValue, hOthers⟩ | ⟨hHead, hOptional, hOthers⟩⟩
        · rcases
              Cursor.exists_passes
                (hAhead.trans List.singleton_append.symm) with
            ⟨d, hPasses, rfl⟩
          have hLe := hPasses.length_remaining_eq
          rw [List.length_singleton] at hLe
          rcases hValue.exists_cursor with
            ⟨e, hData, rfl, hLe'⟩
          obtain ⟨c', hRest⟩ :=
            (ih (by omega)).mpr ⟨rest, hOthers⟩
          exact
            ⟨c', Or.inl ⟨d, v, e, others, hPasses,
              (derives_decodeAs hNested f.type d e v
                (by omega)).mpr ⟨hData, hValue⟩, hRest, rfl⟩⟩
        · rcases (ih hc).mpr ⟨rest, hOthers⟩ with
            ⟨c', hRest⟩
          exact ⟨c', Or.inr ⟨hHead, hOptional, hRest⟩⟩

/- Decoding gives what can be derived, and nothing else. -/
theorem decode_eq_ok_iff
    {name : String}
    {data : List UInt8}
    {v : Value} :
    decode s name data = .ok v ↔ Decodes s name data v := by
  induction hSize : data.length using Nat.strongRecOn
      generalizing name data v with
  | _ n ih =>
      have hNested :
          ∀ name' data' v', data'.length < n →
            (decode s name' data' = .ok v' ↔
              Decodes s name' data' v') :=
        fun _ _ _ hShort => ih _ hShort rfl
      rw [decode_eq]
      unfold Decodes
      cases hMessage : s.message? name with
      | none =>
          unfold decodeWith
          rw [hMessage]
          simp
      | some m =>
          rw [decodeWith_of_message? hMessage]
          have hBody :
              ∀ found,
                (decodeBody s (decode s) m.fields).eval data =
                    .ok found ↔
                  ∃ rest,
                    Reads s (.fields m.fields found) data
                      rest := by
            intro found
            rw [eval_eq_ok_iff]
            exact decodeBody_eq_ok_iff hNested (Nat.le_of_eq hSize)
          constructor
          · intro h
            cases hFound :
                (decodeBody s (decode s) m.fields).eval
                  data with
            | error e =>
                rw [hFound] at h
                cases h
            | ok found =>
                rw [hFound] at h
                cases h
                rcases (hBody found).mp hFound with
                  ⟨rest, hReads⟩
                exact ⟨m, found, rest, rfl, rfl, hReads⟩
          · intro h
            rcases h with
              ⟨m', found, rest, hSame, rfl, hReads⟩
            cases hSame
            rw [(hBody found).mpr ⟨rest, hReads⟩]
            rfl

/- A value of a type is read as can be derived. -/
theorem decodeAs_eq_ok_iff
    {type : ResolvedType}
    {c c' : Cursor}
    {v : Value} :
    decodeAs s (decode s) type c = (.ok v, c') ↔
      c'.data = c.data ∧
        Reads s (.value type v) c.remaining c'.remaining :=
  derives_decodeAs
    (fun _ _ _ _ => decode_eq_ok_iff) type c c' v
    (Nat.lt_succ_self _)

end Value

end TagWire
