import TagWire.Proofs.Schema.WellFormed
import TagWire.Proofs.Value.Reading
import TagWire.Sample.Schemas

/-
  Where there are no maps and no fields with zero values, each
  value has one encoding only: what was decoded is encoded to
  the very bytes that it was decoded from.

  Main declarations:
    * `Schema.Reaches`
    * `Value.WithoutZeros`
    * `Value.verbatim_of_reads`
    * `Value.encode_prefix_of_decode`
-/

------------------------------------------------------------
-- Reachable Types
------------------------------------------------------------

namespace TagWire

namespace Schema

/-
  The types that occur in a type: the type itself, those in
  its elements or mapped values, and those in the fields of
  the message that it refers to.
-/
inductive Reaches
    (s : ResolvedSchema) :
    ResolvedType → ResolvedType → Prop
| refl
    {type : ResolvedType} :
    Reaches s type type
| element
    {element type : ResolvedType}
    (h : Reaches s element type) :
    Reaches s (.list element) type
| mapped
    {key : ScalarKind}
    {value type : ResolvedType}
    (h : Reaches s value type) :
    Reaches s (.map key value) type
| field
    {name : String}
    {m : Message TypeRef}
    {f : Field TypeRef}
    {type : ResolvedType}
    (hMessage : s.message? name = some m)
    (hField : f ∈ m.fields)
    (h : Reaches s f.type type) :
    Reaches s (.named (.message name)) type

/- No map occurs in a type. -/
def MapFree
    (s : ResolvedSchema)
    (type : ResolvedType) : Prop :=
  ∀ key value, ¬ s.Reaches type (.map key value)

variable {s : ResolvedSchema}

theorem mapFree_scalar
    (kind : ScalarKind) :
    s.MapFree (.scalar kind) := by
  intro key value hReaches
  cases hReaches

/- In a list there is a map only if there is in its elements. -/
theorem mapFree_list
    {element : ResolvedType}
    (h : s.MapFree element) :
    s.MapFree (.list element) := by
  intro key value hReaches
  cases hReaches with
  | element hReaches => exact h key value hReaches

/- In a message there is a map only if there is in a field. -/
theorem mapFree_message
    {name : String}
    {m : Message TypeRef}
    (hMessage : s.message? name = some m)
    (h : ∀ f ∈ m.fields, s.MapFree f.type) :
    s.MapFree (.named (.message name)) := by
  intro key value hReaches
  cases hReaches with
  | field hFound hField hReaches =>
      rw [hMessage] at hFound
      cases hFound
      exact h _ hField key value hReaches

end Schema

end TagWire

------------------------------------------------------------
-- Values without Zeros
------------------------------------------------------------

namespace TagWire

namespace Value

/- No message in a value has a field with a zero value. -/
def WithoutZeros
    (s : ResolvedSchema)
    (v : Value) : Prop :=
  ∀ name fields, Part (message name fields) v →
    ∀ e ∈ fields, e.2.isZero s = false

variable {s : ResolvedSchema}

theorem withoutZeros_number
    (kind : NumKind)
    (word : kind.Word) :
    WithoutZeros s (number kind word) := by
  intro name fields hPart
  cases hPart

theorem withoutZeros_string
    (text : String) :
    WithoutZeros s (string text) := by
  intro name fields hPart
  cases hPart

/- In a list, no element has such a message in it. -/
theorem withoutZeros_list_iff
    {vs : List Value} :
    WithoutZeros s (list vs) ↔
      ∀ v ∈ vs, WithoutZeros s v := by
  constructor
  · intro h v hMem name fields hPart
    exact h name fields (.element hMem hPart)
  · intro h name fields hPart
    cases hPart with
    | element hMem hPart => exact h _ hMem name fields hPart

/- In a message, no field is zero or has such a one in it. -/
theorem withoutZeros_message_iff
    {name : String}
    {fields : List (String × Value)} :
    WithoutZeros s (message name fields) ↔
      ∀ e ∈ fields,
        e.2.isZero s = false ∧ WithoutZeros s e.2 := by
  constructor
  · intro h e hMem
    refine ⟨h name fields .refl e hMem, ?_⟩
    intro name' fields' hPart
    exact h name' fields' (.field hMem hPart)
  · intro h name' fields' hPart
    cases hPart with
    | refl => exact fun e hMem => (h e hMem).1
    | field hMem hPart =>
        exact (h _ hMem).2 name' fields' hPart

theorem withoutZeros_ofList
    {name : String}
    {found : List (String × Value)}
    (h :
      ∀ e ∈ found,
        e.2.isZero s = false ∧ WithoutZeros s e.2) :
    WithoutZeros s (message name (Keyed.ofList found)) :=
  withoutZeros_message_iff.mpr fun e he =>
    h e (Keyed.mem_of_mem_ofList he)

end Value

end TagWire

------------------------------------------------------------
-- Reading Verbatim
------------------------------------------------------------

namespace TagWire

namespace Value

variable {s : ResolvedSchema}

/- The encoding of a portion is what it was read from. -/
def Verbatim
    (s : ResolvedSchema) :
    Portion → List UInt8 → List UInt8 → Prop
| .value type v, ahead, rest =>
    s.MapFree type → WithoutZeros s v →
      ∀ field, ∃ bytes,
        encodeAs s field type v = .ok bytes ∧
          ahead = bytes ++ rest
| .elements type vs, ahead, rest =>
    s.MapFree type → (∀ v ∈ vs, WithoutZeros s v) →
      ∀ field, ∃ bytes,
        encodeElements s field type vs = .ok bytes ∧
          ahead = bytes ++ rest
| .entries _ _ _, _, _ => True
| .fields declared found, ahead, rest =>
    (declared.map Field.name).Nodup →
      (∀ f ∈ declared, s.MapFree f.type) →
      (∀ e ∈ found,
        e.2.isZero s = false ∧ WithoutZeros s e.2) →
      ∃ parts,
        declared.mapM (fun f => encodeField s f found) =
            .ok parts ∧
          ahead = parts.flatten ++ rest

/- As many bytes in front of two rests are the same bytes. -/
private theorem taken_eq
    {bytes taken rest behind : List UInt8}
    (h : taken ++ rest = bytes ++ behind)
    (hLength : taken.length = bytes.length) :
    taken = bytes :=
  (List.append_inj h hLength).1

/- A list is read verbatim when its elements are. -/
private theorem verbatim_list
    {element : ResolvedType}
    {vs : List Value}
    {size ahead rest : List UInt8}
    (hSize : encodeLength vs.length = .ok size)
    (h : Verbatim s (.elements element vs) ahead rest) :
    Verbatim s (.value (.list element) (.list vs))
      (size ++ ahead) rest := by
  intro hMaps hZeros field
  rcases
      h (fun key value hReaches =>
        hMaps key value (.element hReaches))
        (withoutZeros_list_iff.mp hZeros) field with
    ⟨inner, hInner, rfl⟩
  exact
    ⟨_, encodeAs_list_eq_ok_iff.mpr
      ⟨element, size, inner, rfl, hSize, hInner, rfl⟩,
      (List.append_assoc _ _ _).symm⟩

/-
  A message is read verbatim when its fields are: as many bytes
  are taken for it as it is encoded to, and the fields start
  with these.
-/
private theorem verbatim_message
    (hs : s.WellFormed)
    {name : String}
    {m : Message TypeRef}
    {found : List (String × Value)}
    {bytes taken behind rest : List UInt8}
    (hMessage : s.message? name = some m)
    (hNames :
      (found.map Prod.fst).Sublist (m.fields.map Field.name))
    (hEncode :
      (message m.name (Keyed.ofList found)).encode s =
        .ok bytes)
    (hTaken : taken.length = bytes.length)
    (h :
      Verbatim s (.fields m.fields found) (taken ++ rest)
        behind) :
    Verbatim s
      (.value (.named (.message name))
        (.message m.name (Keyed.ofList found)))
      (taken ++ rest) rest := by
  intro hMaps hZeros field
  have hMem := (Schema.of_message?_eq_some hMessage).1
  have hNodup := hs.fieldNames m hMem
  have hFound := hNames.nodup hNodup
  rcases
      h hNodup
        (fun f hf key value hReaches =>
          hMaps key value (.field hMessage hf hReaches))
        (fun e he => withoutZeros_message_iff.mp hZeros e
          (Keyed.mem_ofList_of_nodup hFound he)) with
    ⟨parts, hParts, hAhead⟩
  have hSame : bytes = parts.flatten := by
    rw [encode_message_ofList
      (Schema.message?_of_mem hs hMem) hFound,
      hParts] at hEncode
    exact (Except.ok.inj hEncode).symm
  have hTakenEq : taken = bytes := by
    rw [← hSame] at hAhead
    exact taken_eq hAhead hTaken
  refine
    ⟨bytes, encodeAs_message_eq_ok_iff.mpr
      ⟨name, rfl, hEncode⟩, ?_⟩
  rw [hTakenEq]

/- A field that is read and is not zero is written again. -/
private theorem verbatim_fields_set
    {f : Field TypeRef}
    {declared : List (Field TypeRef)}
    {v : Value}
    {found : List (String × Value)}
    {ahead behind rest : List UInt8}
    (hValue : Verbatim s (.value f.type v) ahead behind)
    (hOthers : Verbatim s (.fields declared found) behind rest) :
    Verbatim s (.fields (f :: declared) ((f.name, v) :: found))
      (f.seq :: ahead) rest := by
  intro hNodup hMaps hZeros
  rcases List.nodup_cons.mp hNodup with ⟨hName, hNodup⟩
  rcases List.forall_mem_cons.mp hMaps with
    ⟨hMap, hMaps⟩
  rcases List.forall_mem_cons.mp hZeros with
    ⟨⟨hSet, hZero⟩, hZeros⟩
  rcases hValue hMap hZero f.name with
    ⟨bytes, hBytes, rfl⟩
  rcases hOthers hNodup hMaps hZeros with
    ⟨parts, hParts, rfl⟩
  have hPart :
      encodeField s f ((f.name, v) :: found) =
        .ok (f.seq :: bytes) :=
    encodeField_eq_ok_iff.mpr (Or.inl
      ⟨v, bytes, List.lookup_cons_self, hSet, hBytes, rfl⟩)
  refine ⟨(f.seq :: bytes) :: parts, ?_, ?_⟩
  · rw [List.mapM_cons, hPart, mapM_encodeField_cons hName,
      hParts]
    rfl
  · rw [List.flatten_cons, List.append_assoc,
      List.cons_append]

private theorem verbatim_fields_unset
    {f : Field TypeRef}
    {declared : List (Field TypeRef)}
    {found : List (String × Value)}
    {ahead rest : List UInt8}
    (hOptional : f.optional = true)
    (hNames :
      (found.map Prod.fst).Sublist (declared.map Field.name))
    (hOthers : Verbatim s (.fields declared found) ahead rest) :
    Verbatim s (.fields (f :: declared) found) ahead rest := by
  intro hNodup hMaps hZeros
  rcases List.nodup_cons.mp hNodup with ⟨hName, hNodup⟩
  rcases List.forall_mem_cons.mp hMaps with ⟨_, hMaps⟩
  rcases hOthers hNodup hMaps hZeros with
    ⟨parts, hParts, rfl⟩
  have hNotMem : f.name ∉ found.map Prod.fst :=
    fun hMem => hName (hNames.subset hMem)
  refine ⟨[] :: parts, ?_, rfl⟩
  rw [List.mapM_cons, encodeField_of_optional hOptional hNotMem,
    hParts]
  rfl

/- Whatever is read is read verbatim. -/
theorem verbatim_of_reads
    (hs : s.WellFormed)
    {p : Portion}
    {ahead rest : List UInt8}
    (h : Reads s p ahead rest) :
    Verbatim s p ahead rest := by
  induction h with
  | number =>
      intro _ _ field
      exact
        ⟨_, encodeAs_number_eq_ok_iff.mpr ⟨rfl, rfl⟩, rfl⟩
  | string hText =>
      intro _ _ field
      exact
        ⟨_, encodeAs_string_eq_ok_iff.mpr ⟨rfl, hText⟩, rfl⟩
  | @enum name variant e word rest hEnum hVariant =>
      intro _ _ field
      have hMem := (Schema.of_enum?_eq_some hEnum).1
      have hIndex :=
        idxOf?_of_getElem? (hs.variants e hMem) hVariant
      exact
        ⟨_, encodeAs_enum_eq_ok_iff.mpr
          ⟨name, e, _, rfl, hEnum, hIndex, rfl⟩, rfl⟩
  | list hSize _ ih => exact verbatim_list hSize ih
  | map _ _ _ =>
      intro hMaps _ _
      exact absurd .refl (hMaps _ _)
  | message hMessage hFields hEncode hTaken ih =>
      exact
        verbatim_message hs hMessage hFields.names hEncode
          hTaken ih
  | elementsNil =>
      intro _ _ field
      exact ⟨[], by rw [encodeElements], rfl⟩
  | elementsCons _ _ ihHead ihTail =>
      intro hMaps hZeros field
      rcases List.forall_mem_cons.mp hZeros with
        ⟨hZero, hZeros⟩
      rcases ihHead hMaps hZero field with
        ⟨head, hHead, rfl⟩
      rcases ihTail hMaps hZeros field with
        ⟨tail, hTail, rfl⟩
      exact
        ⟨_, encodeElements_cons_eq_ok_iff.mpr
          ⟨head, tail, hHead, hTail, rfl⟩,
          (List.append_assoc _ _ _).symm⟩
  | entriesNil => exact trivial
  | entriesCons _ _ _ _ _ => exact trivial
  | fieldsNil => exact fun _ _ _ => ⟨[], rfl, rfl⟩
  | fieldsSet _ _ ihValue ihOthers =>
      exact verbatim_fields_set ihValue ihOthers
  | fieldsUnset _ hOptional hOthers ih =>
      exact verbatim_fields_unset hOptional hOthers.names ih

/-
  For every schema that is accepted, and each of its messages
  that no map can be reached from: a message that is decoded,
  and that has no field with a zero value at any depth, is
  encoded to the first bytes of those it was decoded from.
-/
theorem encode_prefix_of_decode
    {text : String}
    {s : ResolvedSchema}
    (hCompile : compile text = .ok s)
    {m : Message TypeRef}
    (hMessage : m ∈ s.messages)
    (hMaps :
      ∀ key value,
        ¬ s.Reaches (.named (.message m.name))
          (.map key value))
    {data : List UInt8}
    {v : Value}
    (hDecode : decode s m.name data = .ok v)
    (hZeros :
      ∀ name fields, Part (message name fields) v →
        ∀ e ∈ fields, e.2.isZero s = false) :
    ∃ bytes, v.encode s = .ok bytes ∧ bytes <+: data := by
  have hs := Schema.wellFormed_of_compile hCompile
  have hFound := Schema.message?_of_mem hs hMessage
  rcases decode_eq_ok_iff.mp hDecode with
    ⟨m', found, rest, hSame, rfl, hReads⟩
  rw [hFound] at hSame
  cases hSame
  have hNodup := hs.fieldNames m hMessage
  have hKeys := hReads.names.nodup hNodup
  rcases
      verbatim_of_reads hs hReads hNodup
        (fun f hf key value hReaches =>
          hMaps key value (.field hFound hf hReaches))
        (fun e he => withoutZeros_message_iff.mp hZeros e
          (Keyed.mem_ofList_of_nodup hKeys he)) with
    ⟨parts, hParts, rfl⟩
  refine ⟨parts.flatten, ?_, List.prefix_append _ _⟩
  rw [encode_message_ofList hFound hKeys, hParts]
  rfl

end Value

namespace Sample

def Person.declaration : Message TypeRef where
  name := "Person"
  fields :=
    [
      ⟨"name", 1, false, .scalar .string, ⟨4, 5⟩⟩,
      ⟨"age", 2, true, .scalar (.num (.int .int32)), ⟨5, 5⟩⟩
    ]
  position := ⟨3, 1⟩

def Window.declaration : Message TypeRef where
  name := "Window"
  fields :=
    [
      ⟨"first", 2, true, .scalar (.num (.int .int32)), ⟨10, 5⟩⟩,
      ⟨"second", 5, true, .scalar (.num (.int .int32)), ⟨11, 5⟩⟩
    ]
  position := ⟨9, 1⟩

def StrictWindow.declaration : Message TypeRef where
  name := "StrictWindow"
  fields :=
    [
      ⟨"first", 2, false, .scalar (.num (.int .int32)), ⟨15, 5⟩⟩,
      ⟨"second", 5, false, .scalar (.num (.int .int32)), ⟨16, 5⟩⟩
    ]
  position := ⟨14, 1⟩

def Envelope.declaration : Message TypeRef where
  name := "Envelope"
  fields :=
    [
      ⟨"header", 1, false, .named (.message "Header"), ⟨20, 5⟩⟩,
      ⟨"checksum", 2, false, .scalar (.num (.int .uint32)),
        ⟨21, 5⟩⟩
    ]
  position := ⟨19, 1⟩

def Header.declaration : Message TypeRef where
  name := "Header"
  fields :=
    [
      ⟨"kind", 1, false, .scalar .string, ⟨25, 5⟩⟩,
      ⟨"flags", 2, true, .list (.scalar (.num (.int .uint8))),
        ⟨26, 5⟩⟩
    ]
  position := ⟨24, 1⟩

def Empty.declaration : Message TypeRef where
  name := "Empty"
  fields := []
  position := ⟨29, 1⟩

def Tree.declaration : Message TypeRef where
  name := "Tree"
  fields :=
    [
      ⟨"value", 1, false, .scalar (.num (.int .int32)), ⟨32, 5⟩⟩,
      ⟨"children", 2, true, .list (.named (.message "Tree")),
        ⟨33, 5⟩⟩
    ]
  position := ⟨31, 1⟩

def Grid.declaration : Message TypeRef where
  name := "Grid"
  fields :=
    [
      ⟨"rows", 1, true,
        .list (.list (.scalar (.num (.int .int32)))), ⟨37, 5⟩⟩,
      ⟨"weights", 2, true,
        .map (.num (.int .uint8))
          (.scalar (.num (.float .float32))), ⟨38, 5⟩⟩,
      ⟨"totals", 3, true, .list (.scalar (.num (.int .int32))),
        ⟨39, 5⟩⟩
    ]
  position := ⟨36, 1⟩

/- The schema of small messages that reach corners. -/
def casesSchema : ResolvedSchema where
  enums := []
  messages :=
    [
      Person.declaration, Window.declaration,
      StrictWindow.declaration, Envelope.declaration,
      Header.declaration, Empty.declaration, Tree.declaration,
      Grid.declaration
    ]
  services := []

theorem compile_casesText :
    compile casesText = .ok casesSchema := by
  apply Outcome.eq_ok_of_toOption
  unfold compile parseSource parseText tokenize casesText
    textOfBlocks
  rw [toList_textOfLines]
  decide +kernel

end Sample

namespace Value

open Sample in
/-
  An envelope with one byte behind it. A tag of two stands
  behind the kind of its header: it belongs to the header,
  and the next one to the envelope.
-/
theorem encode_prefix_of_decode_envelope :
    ∃ v,
      decode casesSchema "Envelope"
          [1, 1, 1, 0, 0, 0, 107, 2, 1, 0, 0, 0, 9,
            2, 3, 0, 0, 0, 255] = .ok v ∧
        ∃ bytes,
          v.encode casesSchema = .ok bytes ∧
            bytes <+:
              [1, 1, 1, 0, 0, 0, 107, 2, 1, 0, 0, 0, 9,
                2, 3, 0, 0, 0, 255] := by
  have hMessage :
      Envelope.declaration ∈ casesSchema.messages := by
    decide
  have hMaps :
      ∀ key value,
        ¬ casesSchema.Reaches
          (.named (.message Envelope.declaration.name))
          (.map key value) := by
    have hEnvelope :
        casesSchema.message? Envelope.declaration.name =
          some Envelope.declaration := by
      rfl
    have hHeader :
        casesSchema.message? "Header" =
          some Header.declaration := by
      rfl
    refine Schema.mapFree_message hEnvelope ?_
    refine List.forall_mem_cons.mpr ⟨?_, ?_⟩
    · refine Schema.mapFree_message hHeader ?_
      refine List.forall_mem_cons.mpr
        ⟨Schema.mapFree_scalar _, ?_⟩
      exact List.forall_mem_singleton.mpr
        (Schema.mapFree_list (Schema.mapFree_scalar _))
    · exact List.forall_mem_singleton.mpr
        (Schema.mapFree_scalar _)
  let header : List (String × Value) :=
    [
      ("kind", string "k"),
      ("flags", list [number (.int .uint8) 9])
    ]
  have hHeader :
      Reads casesSchema
        (.fields Header.declaration.fields header)
        [1, 1, 0, 0, 0, 107, 2, 1, 0, 0, 0, 9,
          2, 3, 0, 0, 0, 255]
        [2, 3, 0, 0, 0, 255] := by
    have hKind : encodeString "k" = .ok [1, 0, 0, 0, 107] := by
      rfl
    have hFlags :
        Reads casesSchema
          (.value (.list (.scalar (.num (.int .uint8))))
            (list [number (.int .uint8) 9]))
          ([1, 0, 0, 0] ++ [9, 2, 3, 0, 0, 0, 255])
          [2, 3, 0, 0, 0, 255] :=
      .list rfl (.elementsCons .number .elementsNil)
    exact .fieldsSet (.string hKind) (.fieldsSet hFlags .fieldsNil)
  have hValue :
      Reads casesSchema
        (.value (.named (.message "Header"))
          (message "Header" (Keyed.ofList header)))
        ([1, 1, 0, 0, 0, 107, 2, 1, 0, 0, 0, 9] ++
          [2, 3, 0, 0, 0, 255])
        [2, 3, 0, 0, 0, 255] :=
    .message (m := Header.declaration) rfl hHeader rfl rfl
  have hEnvelope :
      Reads casesSchema
        (.fields Envelope.declaration.fields
          [
            ("header", message "Header" (Keyed.ofList header)),
            ("checksum", number (.int .uint32) 3)
          ])
        [1, 1, 1, 0, 0, 0, 107, 2, 1, 0, 0, 0, 9,
          2, 3, 0, 0, 0, 255]
        [255] :=
    .fieldsSet hValue (.fieldsSet .number .fieldsNil)
  have hDecodes :
      Decodes casesSchema Envelope.declaration.name _ _ :=
    ⟨Envelope.declaration, _, _, rfl, rfl, hEnvelope⟩
  have hDecode := decode_eq_ok_iff.mpr hDecodes
  refine ⟨_, hDecode, ?_⟩
  refine encode_prefix_of_decode compile_casesText hMessage
    hMaps hDecode ?_
  have hHeaderZeros :
      WithoutZeros casesSchema
        (message "Header" (Keyed.ofList header)) := by
    apply withoutZeros_ofList
    refine List.forall_mem_cons.mpr
      ⟨⟨rfl, withoutZeros_string _⟩, ?_⟩
    refine List.forall_mem_singleton.mpr ⟨rfl, ?_⟩
    exact withoutZeros_list_iff.mpr
      (List.forall_mem_singleton.mpr
        (withoutZeros_number _ _))
  apply withoutZeros_ofList
  exact List.forall_mem_cons.mpr
    ⟨⟨rfl, hHeaderZeros⟩, List.forall_mem_singleton.mpr
      ⟨rfl, withoutZeros_number _ _⟩⟩

end Value

end TagWire
