import TagWire.Proofs.Value.InitialRun
import TagWire.Proofs.Wire.Delimited

/-
  The fields of a message as they are written, one behind the
  other, each a tag and the bytes of a value. These bytes
  delimit the value, if there is no message in it: whatever is
  encoded is read again from all of its bytes, and from none
  of their beginnings.

  Main declarations:
    * `Value.delimited_decodeAs`
    * `Value.exists_reads_of_encodeAs`
    * `Value.chunks`
    * `Value.encode_eq_flatMap_written`
    * `Value.Chunk.Readable`
    * `Value.Chunk.Readable.runsOut`
-/

------------------------------------------------------------
-- Delimited Values
------------------------------------------------------------

namespace TagWire

namespace CodecError

/- The error of bytes that end too early. -/
def unexpectedEnd
    (offset needed : Nat) :
    CodecError :=
  wire (.unexpectedEnd offset needed)

end CodecError

namespace Value

open Reader ResolvedType

variable {s : ResolvedSchema}
variable {nested : MessageDecoder}

theorem delimited_decodeKey
    (kind : ScalarKind) :
    Delimited CodecError.unexpectedEnd (decodeKey kind) := by
  unfold decodeKey
  split
  · exact (delimited_number _).mapError.bind
      fun _ => delimited_pure _
  · exact delimited_fail _
  · exact delimited_string.mapError.bind
      fun _ => delimited_pure _

theorem delimited_decodeScalar
    (kind : ScalarKind) :
    Delimited CodecError.unexpectedEnd (decodeScalar kind) := by
  unfold decodeScalar
  split
  · exact (delimited_number _).mapError.bind
      fun _ => delimited_pure _
  · exact delimited_string.mapError.bind
      fun _ => delimited_pure _

theorem delimited_decodeEnum
    (name : String) :
    Delimited CodecError.unexpectedEnd (decodeEnum s name) := by
  unfold decodeEnum
  split
  · exact delimited_fail _
  · refine (delimited_number _).mapError.bind fun word => ?_
    split
    · exact delimited_pure _
    · exact delimited_fail _

/-
  The bytes of a value decide about it, unless there is a
  message in its type: that one looks at all bytes ahead.
-/
theorem delimited_decodeAs
    {type : ResolvedType}
    (hFlat : Flat type) :
    Delimited CodecError.unexpectedEnd
      (decodeAs s nested type) := by
  induction type with
  | scalar kind => exact delimited_decodeScalar kind
  | named reference =>
      cases reference with
      | enum name => exact delimited_decodeEnum name
      | message name => exact absurd hFlat not_flat_message
  | list element ih =>
      have hElement := ih (flat_list_iff.mp hFlat)
      exact delimited_length.mapError.bind fun size =>
        (hElement.times size).bind fun _ => delimited_pure _
  | map key value ih =>
      have hValue := ih (flat_map_iff.mp hFlat)
      refine delimited_length.mapError.bind fun size => ?_
      refine Delimited.bind (Delimited.times ?_ size)
        fun entries => delimited_pure _
      exact (delimited_decodeKey key).bind fun k =>
        hValue.bind fun v => delimited_pure _

end Value

end TagWire

------------------------------------------------------------
-- Encodings That Are Read
------------------------------------------------------------

namespace TagWire

namespace Value

open ResolvedType

variable {s : ResolvedSchema}

/- Elements are read, one behind the other, if each is. -/
theorem exists_reads_elements
    {field : String}
    {element : ResolvedType}
    {vs : List Value}
    {inner : List UInt8}
    (hFlat : Flat element)
    (hEach :
      ∀ v ∈ vs, ∀ bytes,
        encodeAs s field element v = .ok bytes →
          ∃ v', Reads s (.value element v') bytes [])
    (h : encodeElements s field element vs = .ok inner) :
    ∃ vs', vs'.length = vs.length ∧
      Reads s (.elements element vs') inner [] := by
  induction vs generalizing inner with
  | nil =>
      rw [encodeElements] at h
      cases h
      exact ⟨[], rfl, .elementsNil⟩
  | cons v rest ih =>
      rcases List.forall_mem_cons.mp hEach with
        ⟨hFirst, hOthers⟩
      rcases encodeElements_cons_eq_ok_iff.mp h with
        ⟨head, tail, hHead, hTail, rfl⟩
      rcases hFirst head hHead with ⟨v', hv'⟩
      rcases ih hOthers hTail with ⟨vs', hLength, hReads⟩
      have hBehind :
          Reads s (.value element v') (head ++ tail) tail :=
        Reads.append (p := .value element v') hFlat hv' tail
      exact ⟨v' :: vs', congrArg Nat.succ hLength,
        .elementsCons hBehind hReads⟩

/- Entries are read with their keys, if each value is. -/
theorem exists_reads_entries
    {field : String}
    {key : ScalarKind}
    {type : ResolvedType}
    {entries : List (MapKey × Value)}
    {inner : List UInt8}
    (hFlat : Flat type)
    (hEach :
      ∀ e ∈ entries, ∀ bytes,
        encodeAs s field type e.2 = .ok bytes →
          ∃ v', Reads s (.value type v') bytes [])
    (h : encodeEntries s field key type entries = .ok inner) :
    ∃ bound, bound.map Prod.fst = entries.map Prod.fst ∧
      Reads s (.entries key type bound) inner [] := by
  induction entries generalizing inner with
  | nil =>
      rw [encodeEntries] at h
      cases h
      exact ⟨[], rfl, .entriesNil⟩
  | cons e rest ih =>
      rcases List.forall_mem_cons.mp hEach with
        ⟨hFirst, hOthers⟩
      rcases encodeEntries_cons_eq_ok_iff.mp h with
        ⟨front, head, tail, hKey, hHead, hTail, rfl⟩
      rcases hFirst head hHead with ⟨v', hv'⟩
      rcases ih hOthers hTail with ⟨bound, hKeys, hReads⟩
      have hBehind :
          Reads s (.value type v') (head ++ tail) tail :=
        Reads.append (p := .value type v') hFlat hv' tail
      exact ⟨(e.1, v') :: bound, congrArg (e.1 :: ·) hKeys,
        .entriesCons hKey hBehind hReads⟩

/-
  An encoding is always read, to some value of the type. It is
  another one if the number of a variant was cut to four bytes.
-/
theorem exists_reads_of_encodeAs
    {field : String}
    {type : ResolvedType}
    {v : Value}
    {bytes : List UInt8}
    (hFlat : Flat type)
    (h : encodeAs s field type v = .ok bytes) :
    ∃ v', Reads s (.value type v') bytes [] := by
  induction v using Value.induct
      generalizing type bytes with
  | number kind word =>
      rcases encodeAs_number_eq_ok_iff.mp h with ⟨rfl, rfl⟩
      exact ⟨_, Reads.number_iff.mpr
        ⟨word, rfl, (List.append_nil _).symm⟩⟩
  | string text =>
      rcases encodeAs_string_eq_ok_iff.mp h with ⟨rfl, hText⟩
      exact ⟨_, Reads.string_iff.mpr
        ⟨text, bytes, rfl, hText, (List.append_nil _).symm⟩⟩
  | enum name variant =>
      rcases encodeAs_enum_eq_ok_iff.mp h with
        ⟨declared, e, index, rfl, hEnum, hIndex, rfl⟩
      rcases List.idxOf?_eq_some_iff.mp hIndex with ⟨hLt, _⟩
      -- the number that is read is the index, cut to size
      have hRead : index % 2 ^ 32 < e.variants.length :=
        Nat.lt_of_le_of_lt (Nat.mod_le _ _) hLt
      have hBytes :
          LittleEndian.bytes 4 index =
            @LittleEndian.encode 4 (BitVec.ofNat 32 index) := by
        show _ = LittleEndian.bytes 4 (index % 2 ^ 32)
        rw [← LittleEndian.bytes_number
          (LittleEndian.bytes 4 index),
          LittleEndian.length_bytes, LittleEndian.number_bytes]
      refine ⟨_, Reads.enum_iff.mpr
        ⟨e, BitVec.ofNat 32 index, e.variants[index % 2 ^ 32],
          hEnum, ?_, rfl, ?_⟩⟩
      · exact List.getElem?_eq_getElem hRead
      · rw [List.append_nil]
        exact hBytes
  | list elements ih =>
      rcases encodeAs_list_eq_ok_iff.mp h with
        ⟨element, size, inner, rfl, hSize, hInner, rfl⟩
      have hElement := flat_list_iff.mp hFlat
      rcases
          exists_reads_elements hElement
            (fun v hv _ hBytes => ih v hv hElement hBytes)
            hInner with
        ⟨vs, hLength, hReads⟩
      exact ⟨_, .list (hLength ▸ hSize) hReads⟩
  | map entries ih =>
      rcases encodeAs_map_eq_ok_iff.mp h with
        ⟨key, value, size, inner, rfl, hSize, hInner, rfl⟩
      have hValue := flat_map_iff.mp hFlat
      rcases
          exists_reads_entries hValue
            (fun e he _ hBytes => ih e he hValue hBytes)
            hInner with
        ⟨bound, hKeys, hReads⟩
      have hLength : bound.length = entries.length := by
        simpa using congrArg List.length hKeys
      exact ⟨_, .map (hLength ▸ hSize) hReads⟩
  | message name fields =>
      rcases encodeAs_message_eq_ok_iff.mp h with
        ⟨_, rfl, _⟩
      exact absurd hFlat not_flat_message

end Value

end TagWire

------------------------------------------------------------
-- The Written Fields of a Message
------------------------------------------------------------

namespace TagWire

namespace Value

/- A declared field as it is written, if it is set. -/
def chunk?
    (s : ResolvedSchema)
    (fields : List (String × Value))
    (f : Field TypeRef) :
    Option Chunk :=
  match fields.lookup f.name with
  | none => none
  | some v =>
      if v.isZero s then
        none
      else
        match encodeAs s f.name f.type v with
        | .ok bytes => some ⟨f, v.norm s, bytes⟩
        | .error _ => none

/- The set fields of a message as written, in their order. -/
def chunks
    (s : ResolvedSchema)
    (declared : List (Field TypeRef)) :
    Value → List Chunk
| message _ fields => declared.filterMap (chunk? s fields)
| _ => []

/- The bytes that stand for a chunk are read to some value. -/
def Chunk.Readable
    (s : ResolvedSchema)
    (c : Chunk) : Prop :=
  ∃ v, Reads s (.value c.field.type v) c.bytes []

variable {s : ResolvedSchema}
variable {fields : List (String × Value)}
variable {f : Field TypeRef}

/- What is written for a field is its value, encoded. -/
theorem chunk?_eq_some_iff
    {c : Chunk} :
    chunk? s fields f = some c ↔
      c.field = f ∧
        ∃ v, fields.lookup f.name = some v ∧
          v.isZero s = false ∧ c.value = v.norm s ∧
          encodeAs s f.name f.type v = .ok c.bytes := by
  unfold chunk?
  constructor
  · intro h
    split at h
    · cases h
    · next v hLookup =>
      split_ifs at h with hZero
      split at h
      · next bytes hEncode =>
        cases h
        exact ⟨rfl, v, hLookup, eq_false_of_ne_true hZero, rfl,
          hEncode⟩
      · cases h
  · rintro ⟨rfl, v, hLookup, hSet, hValue, hEncode⟩
    simp only [hLookup, hSet, hEncode, ← hValue]
    rfl

/- A field that is encoded is written, or may be unset. -/
theorem chunk?_of_encodeField
    {part : List UInt8}
    (h : encodeField s f fields = .ok part) :
    (∃ c, chunk? s fields f = some c ∧ part = c.written) ∨
      (chunk? s fields f = none ∧ f.optional = true ∧
        part = []) := by
  rcases encodeField_eq_ok_iff.mp h with
    ⟨v, inner, hLookup, hSet, hInner, rfl⟩ |
    ⟨hUnset, hOptional, rfl⟩
  · refine Or.inl ⟨⟨f, v.norm s, inner⟩, ?_, rfl⟩
    exact chunk?_eq_some_iff.mpr
      ⟨rfl, v, hLookup, hSet, rfl, hInner⟩
  · refine Or.inr ⟨?_, hOptional, rfl⟩
    rw [Option.eq_none_iff_forall_ne_some]
    intro c hSome
    rcases chunk?_eq_some_iff.mp hSome with
      ⟨_, v, hLookup, hSet, _⟩
    rw [hUnset v hLookup] at hSet
    cases hSet

/- Fields are written in the order of declaration. -/
theorem sublist_filterMap_chunk?
    (declared : List (Field TypeRef)) :
    ((declared.filterMap (chunk? s fields)).map
      Chunk.field).Sublist declared := by
  induction declared with
  | nil => exact List.Sublist.refl _
  | cons f declared ih =>
      cases hChunk : chunk? s fields f with
      | none =>
          rw [List.filterMap_cons_none hChunk]
          exact ih.cons f
      | some c =>
          rw [List.filterMap_cons_some hChunk, List.map_cons,
            (chunk?_eq_some_iff.mp hChunk).1]
          exact ih.cons_cons f

/-
  The encoding of some fields is what is written for each of
  them, and the required ones are among those written.
-/
theorem flatMap_written_of_mapM
    {declared : List (Field TypeRef)}
    {parts : List (List UInt8)}
    (h :
      declared.mapM (fun f => encodeField s f fields) =
        .ok parts) :
    parts.flatten =
        (declared.filterMap (chunk? s fields)).flatMap
          Chunk.written ∧
      ∀ f ∈ declared, f.optional = false →
        f ∈ (declared.filterMap (chunk? s fields)).map
          Chunk.field := by
  induction declared generalizing parts with
  | nil =>
      cases h
      exact ⟨rfl, by simp⟩
  | cons f declared ih =>
      simp only [List.mapM_cons, Outcome.bind_eq_ok_iff,
        Outcome.pure_eq_ok_iff] at h
      rcases h with ⟨part, hPart, parts, hParts, rfl⟩
      rcases ih hParts with ⟨hFlatten, hRequired⟩
      rw [List.flatten_cons, hFlatten, List.forall_mem_cons]
      rcases chunk?_of_encodeField hPart with
        ⟨c, hChunk, rfl⟩ | ⟨hChunk, hOptional, rfl⟩
      · rw [List.filterMap_cons_some hChunk,
          List.flatMap_cons, List.map_cons,
          (chunk?_eq_some_iff.mp hChunk).1]
        refine ⟨rfl, fun _ => List.mem_cons_self, ?_⟩
        exact fun g hg hg' =>
          List.mem_cons_of_mem f (hRequired g hg hg')
      · rw [List.filterMap_cons_none hChunk]
        refine ⟨rfl, ?_, hRequired⟩
        intro hNot
        rw [hOptional] at hNot
        cases hNot

/- Written fields without messages inside are readable. -/
theorem readable_of_mem_filterMap
    {declared : List (Field TypeRef)}
    (hFlat : ∀ f ∈ declared, ResolvedType.Flat f.type)
    {c : Chunk}
    (hc : c ∈ declared.filterMap (chunk? s fields)) :
    c.Readable s := by
  rcases List.mem_filterMap.mp hc with ⟨f, hf, hChunk⟩
  rcases chunk?_eq_some_iff.mp hChunk with
    ⟨rfl, v, _, _, _, hEncode⟩
  exact exists_reads_of_encodeAs (hFlat c.field hf) hEncode

/- An encoding is what is written for the fields that are set. -/
theorem encode_eq_flatMap_written
    (hs : s.WellFormed)
    {m : Message TypeRef}
    (hMessage : m ∈ s.messages)
    {bytes : List UInt8}
    (hEncode : (message m.name fields).encode s = .ok bytes) :
    bytes =
        (chunks s m.fields (message m.name fields)).flatMap
          Chunk.written ∧
      ∀ f ∈ m.fields, f.optional = false →
        f ∈ (chunks s m.fields (message m.name fields)).map
          Chunk.field := by
  rcases encode_message_eq_ok_iff.mp hEncode with
    ⟨m', parts, hFound, hParts, rfl⟩
  rw [Schema.message?_of_mem hs hMessage] at hFound
  cases hFound
  exact flatMap_written_of_mapM hParts

end Value

end TagWire

------------------------------------------------------------
-- Readable Fields
------------------------------------------------------------

namespace TagWire

namespace Value

open Reader ResolvedType

variable {s : ResolvedSchema}
variable {chunk : Chunk}

namespace Chunk

/- What is readable is read by a decoder that passes it all. -/
theorem Readable.exists_passes
    (h : chunk.Readable s) :
    ∃ v d,
      decodeAs s (decode s) chunk.field.type
          (Cursor.start chunk.bytes) = (.ok v, d) ∧
        (Cursor.start chunk.bytes).Passes chunk.bytes d := by
  rcases h with ⟨v, hReads⟩
  have hReads' :
      Reads s (.value chunk.field.type v)
        (Cursor.start chunk.bytes).remaining [] := by
    rwa [Cursor.remaining_start]
  rcases hReads'.exists_cursor with ⟨d, hData, hRest, _⟩
  refine ⟨v, d, decodeAs_eq_ok_iff.mpr ⟨hData, ?_⟩, hData, ?_⟩
  · rwa [hRest]
  · rw [hRest, List.append_nil, Cursor.remaining_start]

/- A readable field is read with anything behind it. -/
theorem Readable.decodeAs_eq
    (h : chunk.Readable s)
    (hFlat : Flat chunk.field.type)
    {c : Cursor}
    {rest : List UInt8}
    (hRemaining : c.remaining = chunk.bytes ++ rest) :
    ∃ v d,
      decodeAs s (decode s) chunk.field.type c = (.ok v, d) ∧
        c.Passes chunk.bytes d := by
  rcases h.exists_passes with ⟨v, d, hRun, hPasses⟩
  rcases
      (delimited_decodeAs hFlat).extend hRun hPasses
        hRemaining with
    ⟨d', hRun', hPasses'⟩
  exact ⟨v, d', hRun', hPasses'⟩

/- A readable field of which some is missing runs out. -/
theorem Readable.runsOut
    (h : chunk.Readable s)
    (hFlat : Flat chunk.field.type)
    {c : Cursor}
    (hPrefix : c.remaining <+: chunk.bytes)
    (hStrict : c.remaining ≠ chunk.bytes) :
    RunsOut CodecError.unexpectedEnd
      (decodeAs s (decode s) chunk.field.type) c := by
  rcases h.exists_passes with ⟨v, d, hRun, hPasses⟩
  exact
    (delimited_decodeAs hFlat).truncate hRun hPasses hPrefix
      hStrict

end Chunk

end Value

end TagWire
