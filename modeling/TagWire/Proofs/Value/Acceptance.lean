import TagWire.Proofs.Schema.Resolution
import TagWire.Proofs.Value.Conforming
import TagWire.Proofs.Wire.Passing

/-
  Which values are encoded at all. Every value that is written
  stands at a place with a type, and is checked there by
  itself: its kind, its lengths, and the fields that it has to
  have. The names that enum values and messages carry are not
  compared with the type.

  Main declarations:
    * `Value.Stands`
    * `Value.Everywhere`
    * `Value.Accepted`
    * `Value.exists_encodeAs_iff`
    * `Value.Fits`
    * `Value.fits_iff_named_of_encode`
    * `Value.encode_mislabelledResponse`
-/

------------------------------------------------------------
-- Places with a Type
------------------------------------------------------------

namespace TagWire

namespace Value

/- A field is there, and its value is not zero. -/
def IsSet
    (s : ResolvedSchema)
    (fields : List (String × Value))
    (name : String) : Prop :=
  ∃ v, fields.lookup name = some v ∧ v.isZero s = false

/-
  In a value of some type, a value stands at a place of some
  type. The places in a message are those of its set fields,
  each of the type declared for it.
-/
inductive Stands
    (s : ResolvedSchema) :
    ResolvedType → Value → ResolvedType → Value → Prop
| here
    {type : ResolvedType}
    {v : Value} :
    Stands s type v type v
| element
    {element inner : ResolvedType}
    {vs : List Value}
    {v w : Value}
    (hMem : v ∈ vs)
    (h : Stands s element v inner w) :
    Stands s (.list element) (.list vs) inner w
| entry
    {key : ScalarKind}
    {type inner : ResolvedType}
    {entries : List (MapKey × Value)}
    {e : MapKey × Value}
    {w : Value}
    (hMem : e ∈ entries)
    (h : Stands s type e.2 inner w) :
    Stands s (.map key type) (.map entries) inner w
| field
    {declared name : String}
    {fields : List (String × Value)}
    {m : Message TypeRef}
    {f : Field TypeRef}
    {inner : ResolvedType}
    {v w : Value}
    (hMessage : s.message? name = some m)
    (hf : f ∈ m.fields)
    (hField : fields.lookup f.name = some v)
    (hSet : v.isZero s = false)
    (h : Stands s f.type v inner w) :
    Stands s (.named (.message declared))
      (.message name fields) inner w

/- At all places in a value, types and values are related. -/
def Everywhere
    (s : ResolvedSchema)
    (P : ResolvedType → Value → Prop)
    (type : ResolvedType)
    (v : Value) : Prop :=
  ∀ inner w, Stands s type v inner w → P inner w

variable {s : ResolvedSchema}
variable {P : ResolvedType → Value → Prop}

theorem Everywhere.here
    {type : ResolvedType}
    {v : Value}
    (h : Everywhere s P type v) :
    P type v :=
  h type v .here

theorem everywhere_number_iff
    {type : ResolvedType}
    {kind : NumKind}
    {word : kind.Word} :
    Everywhere s P type (number kind word) ↔
      P type (number kind word) := by
  constructor
  · exact Everywhere.here
  · intro h inner w hStands
    cases hStands
    exact h

theorem everywhere_string_iff
    {type : ResolvedType}
    {text : String} :
    Everywhere s P type (string text) ↔
      P type (string text) := by
  constructor
  · exact Everywhere.here
  · intro h inner w hStands
    cases hStands
    exact h

theorem everywhere_enum_iff
    {type : ResolvedType}
    {name variant : String} :
    Everywhere s P type (enum name variant) ↔
      P type (enum name variant) := by
  constructor
  · exact Everywhere.here
  · intro h inner w hStands
    cases hStands
    exact h

/- The places in a list are its own and those in elements. -/
theorem everywhere_list_iff
    {element : ResolvedType}
    {vs : List Value} :
    Everywhere s P (.list element) (list vs) ↔
      P (.list element) (list vs) ∧
        ∀ v ∈ vs, Everywhere s P element v := by
  constructor
  · intro h
    exact ⟨h.here,
      fun v hMem inner w hStands =>
        h inner w (.element hMem hStands)⟩
  · intro h inner w hStands
    rcases h with ⟨hHere, hElements⟩
    cases hStands with
    | here => exact hHere
    | element hMem hStands =>
        exact hElements _ hMem inner w hStands

/- The places in a map are its own and those in values. -/
theorem everywhere_map_iff
    {key : ScalarKind}
    {type : ResolvedType}
    {entries : List (MapKey × Value)} :
    Everywhere s P (.map key type) (map entries) ↔
      P (.map key type) (map entries) ∧
        ∀ e ∈ entries, Everywhere s P type e.2 := by
  constructor
  · intro h
    exact ⟨h.here,
      fun e hMem inner w hStands =>
        h inner w (.entry hMem hStands)⟩
  · intro h inner w hStands
    rcases h with ⟨hHere, hValues⟩
    cases hStands with
    | here => exact hHere
    | entry hMem hStands =>
        exact hValues _ hMem inner w hStands

/- The places in a message are its own and those in fields. -/
theorem everywhere_message_iff
    {declared name : String}
    {fields : List (String × Value)}
    {m : Message TypeRef}
    (hMessage : s.message? name = some m) :
    Everywhere s P (.named (.message declared))
        (message name fields) ↔
      P (.named (.message declared)) (message name fields) ∧
        ∀ f ∈ m.fields, ∀ v, fields.lookup f.name = some v →
          v.isZero s = false → Everywhere s P f.type v := by
  constructor
  · intro h
    refine ⟨h.here, ?_⟩
    intro f hf v hField hSet inner w hStands
    exact h inner w
      (.field hMessage hf hField hSet hStands)
  · intro h inner w hStands
    rcases h with ⟨hHere, hFields⟩
    cases hStands with
    | here => exact hHere
    | field hFound hf hField hSet hStands =>
        rw [hMessage] at hFound
        cases hFound
        exact hFields _ hf _ hField hSet inner w hStands

end Value

end TagWire

------------------------------------------------------------
-- Parts That Are Encoded
------------------------------------------------------------

namespace TagWire

namespace Value

variable {s : ResolvedSchema}

/- A key is encoded when it is of its kind and not too long. -/
theorem exists_encodeKey_iff
    {kind : ScalarKind}
    {key : MapKey} :
    (∃ bytes, encodeKey kind key = .ok bytes) ↔
      key.kind = kind ∧ key.text.utf8ByteSize ≤ maxLength := by
  cases key with
  | int k word =>
      rw [encodeKey, MapKey.kind, MapKey.text]
      split
      · next hKind =>
          exact iff_of_true ⟨_, rfl⟩
            ⟨hKind.symm, Nat.zero_le _⟩
      · next hKind => simp [Ne.symm hKind]
  | string text =>
      rw [encodeKey, MapKey.kind, MapKey.text]
      split
      · next hKind =>
          simp only [Outcome.mapError_eq_ok_iff,
            exists_encodeString_iff, hKind, true_and]
      · next hKind => simp [Ne.symm hKind]

/- Elements are encoded when each of them is. -/
theorem exists_encodeElements_iff
    {field : String}
    {type : ResolvedType}
    {vs : List Value} :
    (∃ bytes, encodeElements s field type vs = .ok bytes) ↔
      ∀ v ∈ vs,
        ∃ bytes, encodeAs s field type v = .ok bytes := by
  induction vs with
  | nil =>
      rw [encodeElements]
      exact iff_of_true ⟨[], rfl⟩
        (fun v hMem => absurd hMem List.not_mem_nil)
  | cons v rest ih =>
      rw [List.forall_mem_cons, ← ih]
      simp only [encodeElements_cons_eq_ok_iff]
      constructor
      · intro h
        rcases h with ⟨_, head, tail, hHead, hTail, _⟩
        exact ⟨⟨head, hHead⟩, tail, hTail⟩
      · intro h
        rcases h with ⟨⟨head, hHead⟩, tail, hTail⟩
        exact ⟨_, head, tail, hHead, hTail, rfl⟩

/- Entries are encoded when all their keys and values are. -/
theorem exists_encodeEntries_iff
    {field : String}
    {key : ScalarKind}
    {type : ResolvedType}
    {entries : List (MapKey × Value)} :
    (∃ bytes,
        encodeEntries s field key type entries = .ok bytes) ↔
      ∀ e ∈ entries,
        (∃ bytes, encodeKey key e.1 = .ok bytes) ∧
          ∃ bytes, encodeAs s field type e.2 = .ok bytes := by
  induction entries with
  | nil =>
      rw [encodeEntries]
      exact iff_of_true ⟨[], rfl⟩
        (fun e hMem => absurd hMem List.not_mem_nil)
  | cons e rest ih =>
      rcases e with ⟨k, v⟩
      rw [List.forall_mem_cons, ← ih]
      simp only [encodeEntries_cons_eq_ok_iff]
      constructor
      · intro h
        rcases h with
          ⟨_, front, head, tail, hKey, hHead, hTail, _⟩
        exact ⟨⟨⟨front, hKey⟩, head, hHead⟩, tail, hTail⟩
      · intro h
        rcases h with
          ⟨⟨⟨front, hKey⟩, head, hHead⟩, tail, hTail⟩
        exact ⟨_, front, head, tail, hKey, hHead, hTail, rfl⟩

/-
  A field is encoded when it is set, if it has to be, and when
  its value is encoded, if it is set.
-/
theorem exists_encodeField_iff
    {f : Field TypeRef}
    {fields : List (String × Value)} :
    (∃ bytes, encodeField s f fields = .ok bytes) ↔
      (f.optional = false → IsSet s fields f.name) ∧
        ∀ v, fields.lookup f.name = some v →
          v.isZero s = false →
            ∃ bytes,
              encodeAs s f.name f.type v = .ok bytes := by
  simp only [encodeField_eq_ok_iff]
  constructor
  · intro h
    rcases h with
      ⟨_, ⟨v, inner, hField, hSet, hInner, _⟩ |
        ⟨hUnset, hOptional, _⟩⟩
    · refine ⟨fun _ => ⟨v, hField, hSet⟩, ?_⟩
      intro v' hField' _
      rw [hField] at hField'
      cases hField'
      exact ⟨inner, hInner⟩
    · refine ⟨fun hRequired => ?_, ?_⟩
      · rw [hOptional] at hRequired
        cases hRequired
      · intro v hField hSet
        rw [hUnset v hField] at hSet
        cases hSet
  · intro h
    rcases h with ⟨hRequired, hValue⟩
    by_cases hSet : IsSet s fields f.name
    · rcases hSet with ⟨v, hField, hSet⟩
      rcases hValue v hField hSet with ⟨inner, hInner⟩
      exact ⟨_, Or.inl ⟨v, inner, hField, hSet, hInner, rfl⟩⟩
    · refine ⟨[], Or.inr ⟨?_, ?_, rfl⟩⟩
      · intro v hField
        by_contra hZero
        exact hSet ⟨v, hField, Bool.not_eq_true _ ▸ hZero⟩
      · by_contra hOptional
        exact hSet
          (hRequired (Bool.not_eq_true _ ▸ hOptional))

/- A message is encoded when each declared field is. -/
theorem exists_encode_message_iff
    {name : String}
    {fields : List (String × Value)} :
    (∃ bytes, (message name fields).encode s = .ok bytes) ↔
      ∃ m, s.message? name = some m ∧
        ∀ f ∈ m.fields,
          ∃ bytes, encodeField s f fields = .ok bytes := by
  simp only [encode_message_eq_ok_iff,
    ← Outcome.exists_mapM_eq_ok_iff]
  constructor
  · intro h
    rcases h with ⟨_, m, parts, hMessage, hParts, _⟩
    exact ⟨m, hMessage, parts, hParts⟩
  · intro h
    rcases h with ⟨m, hMessage, parts, hParts⟩
    exact ⟨_, m, parts, hMessage, hParts, rfl⟩

end Value

end TagWire

------------------------------------------------------------
-- Values That Are Encoded
------------------------------------------------------------

namespace TagWire

namespace Value

/-
  What is checked of a value at a place of some type, apart
  from what stands inside it. A message may be any declared
  one, and an enum value may carry any name.
-/
inductive Accepted
    (s : ResolvedSchema) :
    ResolvedType → Value → Prop
| number
    {kind : NumKind}
    {word : kind.Word} :
    Accepted s (.scalar (.num kind)) (.number kind word)
| string
    {text : String}
    (hLength : text.utf8ByteSize ≤ maxLength) :
    Accepted s (.scalar .string) (.string text)
| enum
    {declared name variant : String}
    {e : EnumDecl}
    (hEnum : s.enum? declared = some e)
    (hVariant : variant ∈ e.variants) :
    Accepted s (.named (.enum declared)) (.enum name variant)
| list
    {element : ResolvedType}
    {vs : List Value}
    (hLength : vs.length ≤ maxLength) :
    Accepted s (.list element) (.list vs)
| map
    {key : ScalarKind}
    {type : ResolvedType}
    {entries : List (MapKey × Value)}
    (hLength : entries.length ≤ maxLength)
    (hKeys :
      ∀ e ∈ entries,
        e.1.kind = key ∧ e.1.text.utf8ByteSize ≤ maxLength) :
    Accepted s (.map key type) (.map entries)
| message
    {declared name : String}
    {m : Message TypeRef}
    {fields : List (String × Value)}
    (hMessage : s.message? name = some m)
    (hRequired :
      ∀ f ∈ m.fields, f.optional = false →
        IsSet s fields f.name) :
    Accepted s (.named (.message declared))
      (.message name fields)

variable {s : ResolvedSchema}

/-
  A value is encoded exactly when it is accepted at each of
  its places: the statement that is proved by induction.
-/
def EncodedIffAccepted
    (s : ResolvedSchema)
    (v : Value) : Prop :=
  ∀ field type,
    (∃ bytes, encodeAs s field type v = .ok bytes) ↔
      Everywhere s (Accepted s) type v

private theorem encodedIffAccepted_number
    (kind : NumKind)
    (word : kind.Word) :
    EncodedIffAccepted s (number kind word) := by
  intro field type
  simp only [encodeAs_number_eq_ok_iff,
    everywhere_number_iff]
  constructor
  · intro h
    rcases h with ⟨_, rfl, _⟩
    exact .number
  · intro h
    cases h
    exact ⟨_, rfl, rfl⟩

private theorem encodedIffAccepted_string
    (text : String) :
    EncodedIffAccepted s (string text) := by
  intro field type
  simp only [encodeAs_string_eq_ok_iff,
    everywhere_string_iff, exists_and_left,
    exists_encodeString_iff]
  constructor
  · intro h
    rcases h with ⟨rfl, hLength⟩
    exact .string hLength
  · intro h
    cases h with
    | string hLength => exact ⟨rfl, hLength⟩

/- A variant is encoded when the declared enum has it. -/
private theorem encodedIffAccepted_enum
    (name variant : String) :
    EncodedIffAccepted s (enum name variant) := by
  intro field type
  simp only [encodeAs_enum_eq_ok_iff, everywhere_enum_iff]
  constructor
  · intro h
    rcases h with
      ⟨_, declared, e, index, rfl, hEnum, hIndex, _⟩
    refine .enum hEnum ?_
    by_contra hVariant
    rw [List.idxOf?_eq_none_iff.mpr hVariant] at hIndex
    cases hIndex
  · intro h
    cases h with
    | @enum declared _ _ e hEnum hVariant =>
        rcases List.getElem?_of_mem hVariant with
          ⟨_, hPlace⟩
        rcases exists_idxOf?_of_getElem? hPlace with
          ⟨index, hIndex⟩
        exact
          ⟨_, declared, e, index, rfl, hEnum, hIndex, rfl⟩

private theorem encodedIffAccepted_list
    {vs : List Value}
    (hEach : ∀ v ∈ vs, EncodedIffAccepted s v) :
    EncodedIffAccepted s (list vs) := by
  intro field type
  simp only [encodeAs_list_eq_ok_iff]
  constructor
  · intro h
    rcases h with
      ⟨_, element, size, inner, rfl, hSize, hInner, _⟩
    have hElements :=
      exists_encodeElements_iff.mp ⟨inner, hInner⟩
    exact everywhere_list_iff.mpr
      ⟨.list (exists_encodeLength_iff.mp ⟨size, hSize⟩),
        fun v hv => (hEach v hv field element).mp (hElements v hv)⟩
  · intro h
    cases h.here with
    | @list element _ hLength =>
        rcases exists_encodeLength_iff.mpr hLength with
          ⟨size, hSize⟩
        rcases everywhere_list_iff.mp h with
          ⟨_, hElements⟩
        rcases
            exists_encodeElements_iff.mpr
              fun v hv =>
                (hEach v hv field element).mpr (hElements v hv) with
          ⟨inner, hInner⟩
        exact
          ⟨_, element, size, inner, rfl, hSize, hInner, rfl⟩

private theorem encodedIffAccepted_map
    {entries : List (MapKey × Value)}
    (hEach : ∀ e ∈ entries, EncodedIffAccepted s e.2) :
    EncodedIffAccepted s (map entries) := by
  intro field type
  simp only [encodeAs_map_eq_ok_iff]
  constructor
  · intro h
    rcases h with
      ⟨_, key, type, size, inner, rfl, hSize, hInner, _⟩
    have hEntries :=
      exists_encodeEntries_iff.mp ⟨inner, hInner⟩
    refine everywhere_map_iff.mpr ⟨.map ?_ ?_, ?_⟩
    · exact exists_encodeLength_iff.mp ⟨size, hSize⟩
    · exact fun e he =>
        exists_encodeKey_iff.mp (hEntries e he).1
    · exact fun e he => (hEach e he field type).mp (hEntries e he).2
  · intro h
    cases h.here with
    | @map key type _ hLength hKeys =>
        rcases exists_encodeLength_iff.mpr hLength with
          ⟨size, hSize⟩
        rcases everywhere_map_iff.mp h with ⟨_, hValues⟩
        rcases
            exists_encodeEntries_iff.mpr fun e he =>
              ⟨exists_encodeKey_iff.mpr (hKeys e he),
                (hEach e he field type).mpr (hValues e he)⟩ with
          ⟨inner, hInner⟩
        exact
          ⟨_, key, type, size, inner, rfl, hSize, hInner,
            rfl⟩

/-
  A message is encoded when each field is: a field that is not
  set is not encoded, so nothing is asked of its value.
-/
private theorem encodedIffAccepted_message
    (name : String)
    {fields : List (String × Value)}
    (hEach : ∀ e ∈ fields, EncodedIffAccepted s e.2) :
    EncodedIffAccepted s (message name fields) := by
  intro field type
  simp only [encodeAs_message_eq_ok_iff]
  constructor
  · intro h
    rcases h with ⟨bytes, declared, rfl, hBytes⟩
    rcases exists_encode_message_iff.mp ⟨bytes, hBytes⟩ with
      ⟨m, hMessage, hFields⟩
    refine (everywhere_message_iff hMessage).mpr
      ⟨.message hMessage ?_, ?_⟩
    · exact fun f hf =>
        (exists_encodeField_iff.mp (hFields f hf)).1
    · intro f hf v hField hSet
      exact (hEach _ (Keyed.mem_of_lookup hField) _ _).mp
        ((exists_encodeField_iff.mp (hFields f hf)).2
          v hField hSet)
  · intro h
    cases h.here with
    | @message declared _ m _ hMessage hRequired =>
        rcases (everywhere_message_iff hMessage).mp h with
          ⟨_, hFields⟩
        have hEncoded :
            ∀ f ∈ m.fields,
              ∃ bytes,
                encodeField s f fields = .ok bytes := by
          intro f hf
          refine exists_encodeField_iff.mpr
            ⟨hRequired f hf, ?_⟩
          intro v hField hSet
          exact (hEach _ (Keyed.mem_of_lookup hField) _ _).mpr
            (hFields f hf v hField hSet)
        rcases
            exists_encode_message_iff.mpr
              ⟨m, hMessage, hEncoded⟩ with
          ⟨bytes, hBytes⟩
        exact ⟨bytes, declared, rfl, hBytes⟩

/-
  A value is encoded exactly when it is accepted at each of
  its places.
-/
theorem exists_encodeAs_iff
    {field : String}
    {type : ResolvedType}
    {v : Value} :
    (∃ bytes, encodeAs s field type v = .ok bytes) ↔
      Everywhere s (Accepted s) type v := by
  suffices h : EncodedIffAccepted s v from h field type
  induction v using Value.induct with
  | number kind word => exact encodedIffAccepted_number kind word
  | string text => exact encodedIffAccepted_string text
  | enum name variant =>
      exact encodedIffAccepted_enum name variant
  | list vs ih => exact encodedIffAccepted_list ih
  | map entries ih => exact encodedIffAccepted_map ih
  | message name fields ih =>
      exact encodedIffAccepted_message name ih

/- The same for a message by itself, under its own name. -/
theorem exists_encode_iff_accepted
    {name : String}
    {fields : List (String × Value)} :
    (∃ bytes, (message name fields).encode s = .ok bytes) ↔
      Everywhere s (Accepted s) (.named (.message name))
        (message name fields) := by
  rw [← @exists_encodeAs_iff s name]
  simp [encodeAs_message_eq_ok_iff]

end Value

end TagWire

------------------------------------------------------------
-- Names of Types
------------------------------------------------------------

namespace TagWire

namespace Value

/-
  A value is of the type of its place, apart from what stands
  inside it: an enum value or a message is of the declaration
  that the type refers to.
-/
inductive Fits
    (s : ResolvedSchema) :
    ResolvedType → Value → Prop
| number
    {kind : NumKind}
    {word : kind.Word} :
    Fits s (.scalar (.num kind)) (.number kind word)
| string
    {text : String} :
    Fits s (.scalar .string) (.string text)
| enum
    {name variant : String}
    {e : EnumDecl}
    (hEnum : s.enum? name = some e)
    (hVariant : variant ∈ e.variants) :
    Fits s (.named (.enum name)) (.enum name variant)
| list
    {element : ResolvedType}
    {vs : List Value} :
    Fits s (.list element) (.list vs)
| map
    {key : ScalarKind}
    {type : ResolvedType}
    {entries : List (MapKey × Value)}
    (hKeys : ∀ e ∈ entries, e.1.kind = key) :
    Fits s (.map key type) (.map entries)
| message
    {name : String}
    {fields : List (String × Value)} :
    Fits s (.named (.message name)) (.message name fields)

/- An enum value or a message carries the name of the type. -/
def CarriesName : ResolvedType → Value → Prop
| .named reference, enum name _ => name = reference.name
| .named reference, message name _ => name = reference.name
| _, _ => True

variable {s : ResolvedSchema}

/- What is of a type carries the name of the type. -/
theorem Fits.carriesName
    {type : ResolvedType}
    {v : Value}
    (h : Fits s type v) :
    CarriesName type v := by
  cases h <;> simp [CarriesName, TypeRef.name]

/- Of an accepted value only the name is left to be checked. -/
theorem fits_iff_carriesName
    {type : ResolvedType}
    {v : Value}
    (h : Accepted s type v) :
    Fits s type v ↔ CarriesName type v := by
  refine ⟨Fits.carriesName, fun hName => ?_⟩
  cases h with
  | number => exact .number
  | string => exact .string
  | list => exact .list
  | map _ hKeys => exact .map fun e he => (hKeys e he).1
  | @enum declared name variant e hEnum hVariant =>
      cases (show name = declared from hName)
      exact .enum hEnum hVariant
  | @message declared name m fields hMessage hRequired =>
      cases (show name = declared from hName)
      exact .message

/-
  What is encoded has been accepted at each of its places. So
  everything in it is of the type of its place exactly when
  its enum values and messages carry the names of these types.
-/
theorem fits_iff_named_of_encode
    {name : String}
    {fields : List (String × Value)}
    {bytes : List UInt8}
    (h : (message name fields).encode s = .ok bytes) :
    Everywhere s (Accepted s) (.named (.message name))
        (message name fields) ∧
      (Everywhere s (Fits s) (.named (.message name))
          (message name fields) ↔
        Everywhere s CarriesName (.named (.message name))
          (message name fields)) := by
  have hAccepted := exists_encode_iff_accepted.mp ⟨bytes, h⟩
  refine ⟨hAccepted, ?_⟩
  constructor
  · intro hFits type v hStands
    exact (fits_iff_carriesName (hAccepted type v hStands)).mp
      (hFits type v hStands)
  · intro hNames type v hStands
    exact (fits_iff_carriesName (hAccepted type v hStands)).mpr
      (hNames type v hStands)

open Sample in
/-
  The one hit of a response is a ping, and the corpus that the
  response echoes is of an enum that is not even declared.
-/
def mislabelledResponse : Value :=
  message "SearchResponse"
    [
      ("echo",
        message "SearchRequest"
          [("corpus", enum "Shade" "Web"), ("query", string "a")]),
      ("hits",
        list [message "Ping" [("nonce", number (.int .int64) 1)]])
    ]

open Sample in
/-
  The response is accepted at each of its places, so whether it
  fits is a question of the names in it.
-/
theorem fits_iff_named_mislabelledResponse :
    mislabelledResponse.encode searchSchema =
      .ok
        [
          1, 1, 0, 0, 0, 1, 1, 0, 0, 0, 0, 0, 0, 0,
          4, 1, 1, 0, 0, 0, 97, 4, 1, 0, 0, 0
        ] ∧
    Everywhere searchSchema (Accepted searchSchema)
      (.named (.message "SearchResponse"))
      mislabelledResponse ∧
    (Everywhere searchSchema (Fits searchSchema)
        (.named (.message "SearchResponse"))
        mislabelledResponse ↔
      Everywhere searchSchema CarriesName
        (.named (.message "SearchResponse"))
        mislabelledResponse) := by
  have hEncode :
      mislabelledResponse.encode searchSchema =
        .ok
          [
            1, 1, 0, 0, 0, 1, 1, 0, 0, 0, 0, 0, 0, 0,
            4, 1, 1, 0, 0, 0, 97, 4, 1, 0, 0, 0
          ] :=
    rfl
  exact ⟨hEncode, fits_iff_named_of_encode hEncode⟩

open Sample in
/-
  The names that values carry are not checked: the response is
  encoded, though neither its hit nor the corpus in its echo is
  of the type of its place.
-/
theorem encode_mislabelledResponse :
    compile searchText = .ok searchSchema ∧
    SearchResponse.declaration ∈ searchSchema.messages ∧
    mislabelledResponse.encode searchSchema =
      .ok
        [
          1, 1, 0, 0, 0, 1, 1, 0, 0, 0, 0, 0, 0, 0,
          4, 1, 1, 0, 0, 0, 97, 4, 1, 0, 0, 0
        ] ∧
    (Stands searchSchema (.named (.message "SearchResponse"))
        mislabelledResponse (.named (.message "Hit"))
        (message "Ping" [("nonce", number (.int .int64) 1)]) ∧
      ¬ Fits searchSchema (.named (.message "Hit"))
        (message "Ping" [("nonce", number (.int .int64) 1)])) ∧
    (Stands searchSchema (.named (.message "SearchResponse"))
        mislabelledResponse (.named (.enum "Corpus"))
        (enum "Shade" "Web") ∧
      ¬ Fits searchSchema (.named (.enum "Corpus"))
        (enum "Shade" "Web")) := by
  refine
    ⟨compile_searchText, by decide, rfl, ⟨?_, ?_⟩, ⟨?_, ?_⟩⟩
  · exact .field (m := SearchResponse.declaration)
      (f := SearchResponse.declaration.fields[0]) rfl
      (by decide) rfl rfl
      (.element (List.mem_singleton_self _) .here)
  · intro hFits
    exact absurd (show "Ping" = "Hit" from hFits.carriesName)
      (by decide)
  · exact .field (m := SearchResponse.declaration)
      (f := SearchResponse.declaration.fields[3]) rfl
      (by decide) rfl rfl
      (.field (m := SearchRequest.declaration)
        (f := SearchRequest.declaration.fields[3]) rfl
        (by decide) rfl rfl .here)
  · intro hFits
    exact absurd
      (show "Shade" = "Corpus" from hFits.carriesName)
      (by decide)

end Value

end TagWire
