import TagWire.Proofs.Value.Canonical

/-
  What was read is written again within the bytes it was read
  from. So the bytes that a message inside another takes up
  are always there, and only the bytes can be at fault when
  decoding fails.

  Main declarations:
    * `Value.Framed`
    * `Value.framed_of_reads`
    * `Value.raisesWire_decodeAs`
    * `Value.decode_framed`
-/

------------------------------------------------------------
-- Sizes of Entries
------------------------------------------------------------

namespace TagWire

namespace Value

variable {s : ResolvedSchema}
variable {field : String}
variable {key : ScalarKind}
variable {type : ResolvedType}

/- The bytes of an entry: its key and then its value. -/
def encodeEntry
    (s : ResolvedSchema)
    (field : String)
    (key : ScalarKind)
    (type : ResolvedType)
    (e : MapKey × Value) :
    Except CodecError (List UInt8) := do
  let front ← encodeKey key e.1
  let back ← encodeAs s field type e.2
  return front ++ back

/- How many bytes an entry takes, if it is encoded at all. -/
def entrySize
    (s : ResolvedSchema)
    (field : String)
    (key : ScalarKind)
    (type : ResolvedType)
    (e : MapKey × Value) :
    Nat :=
  match encodeEntry s field key type e with
  | .ok bytes => bytes.length
  | .error _ => 0

theorem encodeEntry_eq_ok_iff
    {e : MapKey × Value}
    {bytes : List UInt8} :
    encodeEntry s field key type e = .ok bytes ↔
      ∃ front back,
        encodeKey key e.1 = .ok front ∧
          encodeAs s field type e.2 = .ok back ∧
          bytes = front ++ back := by
  unfold encodeEntry
  simp only [Outcome.bind_eq_ok_iff, Outcome.pure_eq_ok_iff]
  constructor
  · intro h
    rcases h with ⟨front, hKey, back, hValue, rfl⟩
    exact ⟨front, back, hKey, hValue, rfl⟩
  · intro h
    rcases h with ⟨front, back, hKey, hValue, rfl⟩
    exact ⟨front, hKey, back, hValue, rfl⟩

/- Entries that are encoded each are encoded together. -/
theorem encodeEntries_of_forall
    {entries : List (MapKey × Value)}
    (h :
      ∀ e ∈ entries, ∃ bytes,
        encodeEntry s field key type e = .ok bytes) :
    ∃ bytes,
      encodeEntries s field key type entries = .ok bytes ∧
        bytes.length =
          (entries.map (entrySize s field key type)).sum := by
  induction entries with
  | nil => exact ⟨[], by rw [encodeEntries], rfl⟩
  | cons e rest ih =>
      rcases List.forall_mem_cons.mp h with
        ⟨⟨bytes, hEntry⟩, hRest⟩
      rcases ih hRest with ⟨tail, hTail, hLength⟩
      have hSize :
          entrySize s field key type e = bytes.length := by
        unfold entrySize
        rw [hEntry]
      rcases encodeEntry_eq_ok_iff.mp hEntry with
        ⟨front, back, hKey, hValue, rfl⟩
      refine ⟨front ++ (back ++ tail), ?_, ?_⟩
      · exact encodeEntries_cons_eq_ok_iff.mpr
          ⟨front, back, tail, hKey, hValue, hTail, rfl⟩
      · rw [List.map_cons, List.sum_cons, hSize, ← hLength,
          ← List.append_assoc, List.length_append]

end Value

end TagWire

------------------------------------------------------------
-- Frames
------------------------------------------------------------

namespace TagWire

namespace Value

variable {s : ResolvedSchema}

/- A required field is there, but with a zero value. -/
def Lacks
    (s : ResolvedSchema)
    (f : Field TypeRef)
    (fields : List (String × Value)) : Prop :=
  f.optional = false ∧
    ∃ zero, fields.lookup f.name = some zero ∧
      zero.isZero s = true

/-
  The encoding of a portion leaves the bytes behind alone. The
  fields of a message may lack one, and then have no encoding.
-/
def Framed
    (s : ResolvedSchema) :
    Portion → List UInt8 → List UInt8 → Prop
| .value type v, ahead, rest =>
    ∀ field, ∃ bytes,
      encodeAs s field type v = .ok bytes ∧
        bytes.length + rest.length ≤ ahead.length
| .elements type vs, ahead, rest =>
    ∀ field, ∃ bytes,
      encodeElements s field type vs = .ok bytes ∧
        bytes.length + rest.length ≤ ahead.length
| .entries key type bound, ahead, rest =>
    ∀ field,
      (∀ e ∈ bound, ∃ bytes,
        encodeEntry s field key type e = .ok bytes) ∧
      (bound.map (entrySize s field key type)).sum +
          rest.length ≤ ahead.length
| .fields declared found, ahead, rest =>
    (declared.map Field.name).Nodup →
      (∃ parts,
        declared.mapM (fun f => encodeField s f found) =
            .ok parts ∧
          parts.flatten.length + rest.length ≤
            ahead.length) ∨
      (∃ f ∈ declared,
        Lacks s f found ∧
          declared.mapM (fun f => encodeField s f found) =
            .error (.wire (.missingField f.name)))

/- Fields behind one that is encoded are encoded behind it. -/
private theorem mapM_encodeField_of_ok
    {f : Field TypeRef}
    {declared : List (Field TypeRef)}
    {found : List (String × Value)}
    {part : List UInt8}
    (hPart : encodeField s f found = .ok part) :
    (f :: declared).mapM (fun f => encodeField s f found) =
      (declared.mapM (fun f => encodeField s f found)).map
        (part :: ·) := by
  rw [List.mapM_cons, hPart]
  rfl

/- A field in front that cannot be encoded is the fault. -/
private theorem mapM_encodeField_of_error
    {f : Field TypeRef}
    {declared : List (Field TypeRef)}
    {found : List (String × Value)}
    {e : CodecError}
    (hPart : encodeField s f found = .error e) :
    (f :: declared).mapM (fun f => encodeField s f found) =
      .error e := by
  rw [List.mapM_cons, hPart]
  rfl

/- A field in front that fits keeps the fields in frame. -/
private theorem framed_fields_cons
    {f : Field TypeRef}
    {declared : List (Field TypeRef)}
    {found found' : List (String × Value)}
    {part ahead behind rest : List UInt8}
    (hPart : encodeField s f found = .ok part)
    (hLength : part.length + behind.length ≤ ahead.length)
    (hSame :
      ∀ g ∈ declared,
        found.lookup g.name = found'.lookup g.name)
    (h :
      (∃ parts,
        declared.mapM (fun f => encodeField s f found') =
            .ok parts ∧
          parts.flatten.length + rest.length ≤
            behind.length) ∨
      (∃ g ∈ declared,
        Lacks s g found' ∧
          declared.mapM (fun f => encodeField s f found') =
            .error (.wire (.missingField g.name)))) :
    (∃ parts,
      (f :: declared).mapM (fun f => encodeField s f found) =
          .ok parts ∧
        parts.flatten.length + rest.length ≤ ahead.length) ∨
    (∃ g ∈ f :: declared,
      Lacks s g found ∧
        (f :: declared).mapM
            (fun f => encodeField s f found) =
          .error (.wire (.missingField g.name))) := by
  have hCongr :
      declared.mapM (fun f => encodeField s f found) =
        declared.mapM (fun f => encodeField s f found') :=
    Outcome.mapM_congr fun g hg =>
      encodeField_congr (hSame g hg)
  rw [mapM_encodeField_of_ok hPart, hCongr]
  rcases h with ⟨parts, hParts, hRest⟩ |
    ⟨g, hg, ⟨hRequired, zero, hZero⟩, hError⟩
  · refine Or.inl ⟨part :: parts, by rw [hParts]; rfl, ?_⟩
    rw [List.flatten_cons, List.length_append]
    omega
  · refine Or.inr
      ⟨g, List.mem_cons_of_mem f hg, ⟨hRequired, zero, ?_⟩,
        by rw [hError]; rfl⟩
    rwa [hSame g hg]

/- A variant is read off as many bytes as it is encoded to. -/
private theorem framed_enum
    {name variant : String}
    {e : EnumDecl}
    {word : NumKind.Word (.int .uint32)}
    {rest : List UInt8}
    (hEnum : s.enum? name = some e)
    (hVariant : e.variants[word.toNat]? = some variant) :
    Framed s (.value (.named (.enum name)) (.enum e.name variant))
      (LittleEndian.encode word ++ rest) rest := by
  intro field
  rcases exists_idxOf?_of_getElem? hVariant with
    ⟨index, hIndex⟩
  refine
    ⟨_, encodeAs_enum_eq_ok_iff.mpr
      ⟨name, e, index, rfl, hEnum, hIndex, rfl⟩, ?_⟩
  rw [List.length_append, LittleEndian.length_bytes,
    LittleEndian.length_encode]
  exact Nat.le_refl _

/- A list is in frame when its elements are. -/
private theorem framed_list
    {element : ResolvedType}
    {vs : List Value}
    {size ahead rest : List UInt8}
    (hSize : encodeLength vs.length = .ok size)
    (h : Framed s (.elements element vs) ahead rest) :
    Framed s (.value (.list element) (.list vs)) (size ++ ahead)
      rest := by
  intro field
  rcases h field with ⟨inner, hInner, hLe⟩
  refine
    ⟨_, encodeAs_list_eq_ok_iff.mpr
      ⟨element, size, inner, rfl, hSize, hInner, rfl⟩, ?_⟩
  rw [List.length_append, List.length_append]
  omega

/-
  A map is in frame when the bindings are that are read for it:
  it has no other entries than these, and each of them once.
-/
private theorem framed_map
    {key : ScalarKind}
    {type : ResolvedType}
    {bound : List (MapKey × Value)}
    {size ahead rest : List UInt8}
    (hSize : encodeLength bound.length = .ok size)
    (h : Framed s (.entries key type bound) ahead rest) :
    Framed s (.value (.map key type) (.map (Keyed.ofList bound)))
      (size ++ ahead) rest := by
  intro field
  rcases h field with ⟨hEntries, hLe⟩
  rcases
      encodeEntries_of_forall
        fun e he => hEntries e (Keyed.mem_of_mem_ofList he) with
    ⟨inner, hInner, hLength⟩
  have hFits :=
    exists_encodeLength_iff.mp ⟨size, hSize⟩
  rcases
      exists_encodeLength_iff.mpr
        ((Keyed.length_ofList_le bound).trans hFits) with
    ⟨size', hSize'⟩
  refine
    ⟨_, encodeAs_map_eq_ok_iff.mpr
      ⟨key, type, size', inner, rfl, hSize', hInner, rfl⟩,
      ?_⟩
  have hSum :=
    Keyed.sum_ofList_le (entrySize s field key type) bound
  rw [List.length_append, List.length_append,
    length_of_encodeLength hSize,
    length_of_encodeLength hSize']
  omega

private theorem framed_elements_cons
    {type : ResolvedType}
    {v : Value}
    {vs : List Value}
    {ahead behind rest : List UInt8}
    (hHead : Framed s (.value type v) ahead behind)
    (hTail : Framed s (.elements type vs) behind rest) :
    Framed s (.elements type (v :: vs)) ahead rest := by
  intro field
  rcases hHead field with ⟨head, hHead', hLe⟩
  rcases hTail field with ⟨tail, hTail', hLe'⟩
  refine
    ⟨_, encodeElements_cons_eq_ok_iff.mpr
      ⟨head, tail, hHead', hTail', rfl⟩, ?_⟩
  rw [List.length_append]
  omega

private theorem framed_entries_cons
    {key : ScalarKind}
    {type : ResolvedType}
    {k : MapKey}
    {v : Value}
    {bound : List (MapKey × Value)}
    {bytes ahead behind rest : List UInt8}
    (hKey : encodeKey key k = .ok bytes)
    (hHead : Framed s (.value type v) ahead behind)
    (hTail : Framed s (.entries key type bound) behind rest) :
    Framed s (.entries key type ((k, v) :: bound))
      (bytes ++ ahead) rest := by
  intro field
  rcases hHead field with ⟨back, hBack, hLe⟩
  rcases hTail field with ⟨hEntries, hLe'⟩
  have hEntry :
      encodeEntry s field key type (k, v) =
        .ok (bytes ++ back) :=
    encodeEntry_eq_ok_iff.mpr
      ⟨bytes, back, hKey, hBack, rfl⟩
  have hSize :
      entrySize s field key type (k, v) =
        (bytes ++ back).length := by
    unfold entrySize
    rw [hEntry]
  refine ⟨?_, ?_⟩
  · exact List.forall_mem_cons.mpr ⟨⟨_, hEntry⟩, hEntries⟩
  · rw [List.map_cons, List.sum_cons, hSize,
      List.length_append, List.length_append]
    omega

/-
  A field that is read with a zero value is lacking where it is
  required, and not encoded where it is optional.
-/
private theorem framed_fields_set
    {f : Field TypeRef}
    {declared : List (Field TypeRef)}
    {v : Value}
    {found : List (String × Value)}
    {ahead behind rest : List UInt8}
    (hValue : Framed s (.value f.type v) ahead behind)
    (hOthers : Framed s (.fields declared found) behind rest) :
    Framed s (.fields (f :: declared) ((f.name, v) :: found))
      (f.seq :: ahead) rest := by
  intro hNodup
  rcases List.nodup_cons.mp hNodup with ⟨hName, hNodup⟩
  rcases hValue f.name with ⟨bytes, hBytes, hLe⟩
  have hLookup :
      ((f.name, v) :: found).lookup f.name = some v :=
    List.lookup_cons_self
  have hSame :
      ∀ g ∈ declared,
        ((f.name, v) :: found).lookup g.name =
          found.lookup g.name :=
    fun _ hg => lookup_cons_of_mem hName v found hg
  cases hZero : v.isZero s with
  | false =>
      refine framed_fields_cons
        (encodeField_eq_ok_iff.mpr (Or.inl
          ⟨v, bytes, hLookup, hZero, hBytes, rfl⟩))
        ?_ hSame (hOthers hNodup)
      simp only [List.length_cons]
      omega
  | true =>
      cases hOptional : f.optional with
      | true =>
          refine framed_fields_cons
            (encodeField_eq_ok_iff.mpr (Or.inr
              ⟨?_, hOptional, rfl⟩))
            ?_ hSame (hOthers hNodup)
          · intro v' hv'
            rw [hLookup] at hv'
            cases hv'
            exact hZero
          · simp only [List.length_cons, List.length_nil]
            omega
      | false =>
          refine Or.inr
            ⟨f, List.mem_cons_self,
              ⟨hOptional, v, hLookup, hZero⟩, ?_⟩
          apply mapM_encodeField_of_error
          rw [encodeField_eq, hLookup]
          simp only [encodeSet, encodeUnset, hZero,
            hOptional]
          rfl

private theorem framed_fields_unset
    {f : Field TypeRef}
    {declared : List (Field TypeRef)}
    {found : List (String × Value)}
    {ahead rest : List UInt8}
    (hOptional : f.optional = true)
    (hNames :
      (found.map Prod.fst).Sublist (declared.map Field.name))
    (hOthers : Framed s (.fields declared found) ahead rest) :
    Framed s (.fields (f :: declared) found) ahead rest := by
  intro hNodup
  rcases List.nodup_cons.mp hNodup with ⟨hName, hNodup⟩
  have hNotMem : f.name ∉ found.map Prod.fst :=
    fun hMem => hName (hNames.subset hMem)
  exact
    framed_fields_cons (encodeField_of_optional hOptional hNotMem)
      (by simp) (fun g _ => rfl) (hOthers hNodup)

/- Whatever is read is in frame. -/
theorem framed_of_reads
    {p : Portion}
    {ahead rest : List UInt8}
    (h : Reads s p ahead rest) :
    Framed s p ahead rest := by
  induction h with
  | number =>
      intro field
      refine
        ⟨_, encodeAs_number_eq_ok_iff.mpr ⟨rfl, rfl⟩, ?_⟩
      rw [List.length_append]
  | string hText =>
      intro field
      refine
        ⟨_, encodeAs_string_eq_ok_iff.mpr ⟨rfl, hText⟩, ?_⟩
      rw [List.length_append]
  | enum hEnum hVariant => exact framed_enum hEnum hVariant
  | list hSize _ ih => exact framed_list hSize ih
  | map hSize _ ih => exact framed_map hSize ih
  | message _ _ hEncode hTaken _ =>
      intro field
      refine
        ⟨_, encodeAs_message_eq_ok_iff.mpr ⟨_, rfl, hEncode⟩,
          ?_⟩
      rw [List.length_append, hTaken]
  | elementsNil =>
      intro field
      exact ⟨[], by rw [encodeElements], by simp⟩
  | elementsCons _ _ ihHead ihTail =>
      exact framed_elements_cons ihHead ihTail
  | entriesNil =>
      intro field
      exact ⟨fun e he => absurd he List.not_mem_nil, by simp⟩
  | entriesCons hKey _ _ ihHead ihTail =>
      exact framed_entries_cons hKey ihHead ihTail
  | fieldsNil => exact fun _ => Or.inl ⟨[], rfl, by simp⟩
  | fieldsSet _ _ ihValue ihOthers =>
      exact framed_fields_set ihValue ihOthers
  | fieldsUnset _ hOptional hOthers ih =>
      exact framed_fields_unset hOptional hOthers.names ih

end Value

end TagWire

------------------------------------------------------------
-- Decoded Messages
------------------------------------------------------------

namespace TagWire

namespace Value

variable {s : ResolvedSchema}

/- How a message that lacks a field fails to be encoded. -/
def FailsLacking
    (s : ResolvedSchema)
    (m : Message TypeRef)
    (v : Value) : Prop :=
  ∃ f ∈ m.fields, ∃ zero,
    f.optional = false ∧ v.get? f.name = some zero ∧
      zero.isZero s = true ∧
      v.encode s = .error (.wire (.missingField f.name))

/-
  A decoded message is encoded in no more bytes than it was
  decoded from, unless it lacks a field.
-/
theorem encode_of_decodes
    (hs : s.WellFormed)
    {name : String}
    {m : Message TypeRef}
    {data : List UInt8}
    {v : Value}
    (hMessage : s.message? name = some m)
    (h : Decodes s name data v) :
    (∃ bytes,
      v.encode s = .ok bytes ∧ bytes.length ≤ data.length) ∨
    FailsLacking s m v := by
  rcases h with ⟨m', found, rest, hSame, rfl, hReads⟩
  rw [hMessage] at hSame
  cases hSame
  have hMem := (Schema.of_message?_eq_some hMessage).1
  have hFields := hs.fieldNames m hMem
  have hFound := hReads.names.nodup hFields
  have hLookup := Keyed.lookup_ofList_of_nodup hFound
  have hEncode :=
    encode_message_ofList (Schema.message?_of_mem hs hMem)
      hFound
  rcases framed_of_reads hReads hFields with
    ⟨parts, hParts, hLe⟩ |
    ⟨f, hf, ⟨hRequired, zero, hZero, hIsZero⟩, hError⟩
  · refine Or.inl ⟨parts.flatten, ?_, by omega⟩
    rw [hEncode, hParts]
    rfl
  · refine Or.inr
      ⟨f, hf, zero, hRequired, ?_, hIsZero, ?_⟩
    · exact (hLookup f.name).trans hZero
    · rw [hEncode, hError]
      rfl

end Value

end TagWire

------------------------------------------------------------
-- Errors
------------------------------------------------------------

namespace TagWire

namespace Reader

variable {α β : Type}
variable {n : Nat}

/- Where few bytes remain, only they can be at fault. -/
def RaisesWire
    (n : Nat)
    (r : Reader CodecError α) : Prop :=
  ∀ (c c' : Cursor) (e : CodecError),
    c.remaining.length < n →
      r c = (.error e, c') → ∃ fault, e = .wire fault

theorem raisesWire_pure
    (a : α) :
    RaisesWire n (pure a) := by
  intro c c' e _ h
  cases h

theorem raisesWire_fail
    (fault : WireError) :
    RaisesWire n (fail (.wire fault) : Reader CodecError α) := by
  intro c c' e _ h
  cases h
  exact ⟨fault, rfl⟩

theorem raisesWire_wire
    (r : Reader WireError α) :
    RaisesWire n (Value.wire r) := by
  intro c c' e _ h
  unfold Value.wire mapError at h
  rcases hRun : r c with ⟨fault | a, d⟩
  · rw [hRun] at h
    cases h
    exact ⟨fault, rfl⟩
  · rw [hRun] at h
    cases h

theorem raisesWire_tag :
    RaisesWire n tag := by
  intro c c' e _ h
  rcases tag_eq (ε := CodecError) c with ⟨d, hTag⟩
  rw [hTag] at h
  cases h

/- A sequence fails in its first part or in its second. -/
theorem raisesWire_bind
    {r : Reader CodecError α}
    {f : α → Reader CodecError β}
    (hForward : Forward r)
    (hr : RaisesWire n r)
    (hf : ∀ a, RaisesWire n (f a)) :
    RaisesWire n (r >>= f) := by
  intro c c' e hc h
  simp only [bind] at h
  rcases hRun : r c with ⟨e' | a, d⟩
  · rw [hRun] at h
    cases h
    exact hr c c' e hc hRun
  · rw [hRun] at h
    rcases hForward c a d hRun with ⟨bytes, hPasses⟩
    have hLength := hPasses.length_remaining_eq
    exact hf a d c' e (by omega) h

theorem raisesWire_times
    {r : Reader CodecError α}
    (hForward : Forward r)
    (hr : RaisesWire n r)
    (rounds : Nat) :
    RaisesWire n (times r rounds) := by
  induction rounds with
  | zero => exact raisesWire_pure []
  | succ rounds ih =>
      rw [times_succ]
      refine raisesWire_bind hForward hr fun a => ?_
      refine raisesWire_bind (forward_times hForward rounds) ih
        fun rest => ?_
      exact raisesWire_pure _

end Reader

namespace Value

open Reader

variable {s : ResolvedSchema}
variable {n : Nat}

/- An integer or a string is read with wire errors only. -/
theorem raisesWire_decodeKey
    {key : ScalarKind}
    (h : key.isMapKey = true) :
    RaisesWire n (decodeKey key) := by
  unfold decodeKey
  split
  · exact raisesWire_bind
      (forward_mapError (forward_number _))
      (raisesWire_wire _) fun _ => raisesWire_pure _
  · cases h
  · exact raisesWire_bind (forward_mapError forward_string)
      (raisesWire_wire _) fun _ => raisesWire_pure _

theorem raisesWire_decodeScalar
    (kind : ScalarKind) :
    RaisesWire n (decodeScalar kind) := by
  unfold decodeScalar
  split
  · exact raisesWire_bind
      (forward_mapError (forward_number _))
      (raisesWire_wire _) fun _ => raisesWire_pure _
  · exact raisesWire_bind (forward_mapError forward_string)
      (raisesWire_wire _) fun _ => raisesWire_pure _

/- A declared enum is read with wire errors only. -/
theorem raisesWire_decodeEnum
    {name : String}
    {e : EnumDecl}
    (h : s.enum? name = some e) :
    RaisesWire n (decodeEnum s name) := by
  unfold decodeEnum
  rw [h]
  refine raisesWire_bind (forward_mapError (forward_number _))
    (raisesWire_wire _) fun word => ?_
  split
  · exact raisesWire_pure _
  · exact raisesWire_fail _

/-
  Decoding of messages inside fails with wire errors, if it
  fails: they lack a field, or their bytes are at fault.
-/
theorem raisesWire_decodeNested
    (hs : s.WellFormed)
    {name : String}
    {m : Message TypeRef}
    (hMessage : s.message? name = some m)
    (hNested :
      ∀ data e, data.length < n →
        decode s name data = .error e →
          ∃ fault, e = .wire fault) :
    RaisesWire n (decodeNested s (decode s) name) := by
  intro c c' e hc h
  unfold decodeNested at h
  rw [bind_of_ok (lookahead_eq_ok_iff.mpr ⟨rfl, rfl⟩)] at h
  cases hDecode : decode s name c.remaining with
  | error e' =>
      rw [hDecode] at h
      cases h
      exact hNested _ e hc hDecode
  | ok v =>
      rw [bind_of_ok (ofExcept_eq_ok_iff.mpr ⟨hDecode, rfl⟩)]
        at h
      rcases encode_of_decodes hs hMessage
          (decode_eq_ok_iff.mp hDecode) with
        ⟨bytes, hEncode, _⟩ |
        ⟨f, _, _, _, _, _, hEncode⟩
      · rw [bind_of_ok (ofExcept_eq_ok_iff.mpr
          ⟨hEncode, rfl⟩)] at h
        exact raisesWire_bind
          (forward_mapError (forward_skip bytes.length))
          (raisesWire_wire _) (fun _ => raisesWire_pure v)
          c c' e hc h
      · rw [hEncode] at h
        cases h
        exact ⟨_, rfl⟩

/- A type of the schema is read with wire errors only. -/
theorem raisesWire_decodeAs
    (hs : s.WellFormed)
    (hNested :
      ∀ m ∈ s.messages, ∀ data e, data.length < n →
        decode s m.name data = .error e →
          ∃ fault, e = .wire fault)
    {type : ResolvedType}
    (hType : s.Closed type) :
    RaisesWire n (decodeAs s (decode s) type) := by
  induction type with
  | scalar kind => exact raisesWire_decodeScalar kind
  | named reference =>
      cases reference with
      | enum name =>
          rcases Schema.exists_enum?_of_closed hs hType with
            ⟨e, _, hEnum, _⟩
          exact raisesWire_decodeEnum hEnum
      | message name =>
          rcases
              Schema.exists_message?_of_closed hs hType with
            ⟨m, hm, hMessage, rfl⟩
          exact raisesWire_decodeNested hs hMessage
            (hNested m hm)
  | list element ih =>
      refine raisesWire_bind (forward_mapError forward_length)
        (raisesWire_wire _) fun size => ?_
      refine raisesWire_bind
        (forward_times (forward_decodeAs element) size)
        (raisesWire_times (forward_decodeAs element)
          (ih hType) size) fun elements => ?_
      exact raisesWire_pure _
  | map key value ih =>
      have hForward :
          Forward (decodeEntry s (decode s) key value) :=
        forward_bind (forward_decodeKey key) fun k =>
          forward_bind (forward_decodeAs value) fun v =>
            forward_pure _
      have hEntry :
          RaisesWire n (decodeEntry s (decode s) key value) := by
        refine raisesWire_bind (forward_decodeKey key)
          (raisesWire_decodeKey hType.1) fun k => ?_
        exact raisesWire_bind (forward_decodeAs value)
          (ih hType.2) fun v => raisesWire_pure _
      refine raisesWire_bind (forward_mapError forward_length)
        (raisesWire_wire _) fun size => ?_
      exact raisesWire_bind (forward_times hForward size)
        (raisesWire_times hForward hEntry size)
        fun entries => raisesWire_pure _

theorem raisesWire_decodeFields
    (hs : s.WellFormed)
    (hNested :
      ∀ m ∈ s.messages, ∀ data e, data.length < n →
        decode s m.name data = .error e →
          ∃ fault, e = .wire fault)
    {declared : List (Field TypeRef)}
    (hDeclared : ∀ f ∈ declared, s.Closed f.type)
    (tag : Option UInt8) :
    RaisesWire n (decodeFields s (decode s) declared tag) := by
  induction declared generalizing tag with
  | nil => exact raisesWire_pure []
  | cons f rest ih =>
      rcases List.forall_mem_cons.mp hDeclared with
        ⟨hHead, hRest⟩
      unfold decodeFields
      split
      · refine raisesWire_bind (forward_decodeAs f.type)
          (raisesWire_decodeAs hs hNested hHead) fun v => ?_
        refine raisesWire_bind forward_tag raisesWire_tag
          fun next => ?_
        exact raisesWire_bind (forward_decodeFields rest next)
          (ih hRest next) fun others => raisesWire_pure _
      · split
        · exact ih hRest tag
        · exact raisesWire_fail _

/- Without a tag only a required field can be at fault. -/
theorem raisesWire_decodeFields_none
    {nested : MessageDecoder}
    (declared : List (Field TypeRef)) :
    RaisesWire n (decodeFields s nested declared none) := by
  induction declared with
  | nil => exact raisesWire_pure []
  | cons f rest ih =>
      have hNone : none ≠ some f.seq := by simp
      unfold decodeFields
      rw [if_neg hNone]
      split
      · exact ih
      · exact raisesWire_fail _

/- Decoding a declared message fails with wire errors only. -/
theorem decode_eq_wire_error
    (hs : s.WellFormed)
    {m : Message TypeRef}
    (hm : m ∈ s.messages)
    {data : List UInt8}
    {e : CodecError}
    (h : decode s m.name data = .error e) :
    ∃ fault, e = .wire fault := by
  induction hSize : data.length using Nat.strongRecOn
      generalizing m data e with
  | _ n ih =>
      rw [decode_eq, decodeWith_of_message?
        (Schema.message?_of_mem hs hm)] at h
      have hNested :
          ∀ m' ∈ s.messages, ∀ data' e', data'.length < n →
            decode s m'.name data' = .error e' →
              ∃ fault, e' = .wire fault :=
        fun m' hm' data' e' hShort hError =>
          ih data'.length hShort hm' hError rfl
      have hBody :
          (decodeBody s (decode s) m.fields).eval data =
            .error e := by
        cases hResult :
            (decodeBody s (decode s) m.fields).eval data with
        | error e' =>
            rw [hResult] at h
            cases h
            rfl
        | ok found =>
            rw [hResult] at h
            cases h
      unfold Reader.eval decodeBody at hBody
      cases data with
      | nil =>
          rw [bind_of_ok (tag_of_nil (Cursor.remaining_start []))]
            at hBody
          exact raisesWire_decodeFields_none m.fields
            (n := 1) (Cursor.start []) _ e Nat.one_pos
            (Prod.ext hBody rfl)
      | cons b rest =>
          rcases
              tag_of_cons (ε := CodecError)
                (Cursor.remaining_start (b :: rest)) with
            ⟨d, hTag, hPasses⟩
          have hLength := hPasses.length_remaining_eq
          simp only [Cursor.remaining_start, List.length_cons,
            List.length_nil] at hLength hSize
          rw [bind_of_ok hTag] at hBody
          exact raisesWire_decodeFields hs hNested
            (hs.closed m hm) (some b) d _ e (by omega)
            (Prod.ext hBody rfl)

end Value

end TagWire

------------------------------------------------------------
-- Framing by Encoding Again
------------------------------------------------------------

namespace TagWire

namespace Value

/-
  For every schema that is accepted, each of its messages, and
  any bytes: decoding gives a message or a wire error. What it
  gives is encoded in no more bytes, or lacks a required field
  that is there with a zero value. So at any depth, the bytes
  that a message inside another takes up can be skipped.
-/
theorem decode_framed
    {text : String}
    {s : ResolvedSchema}
    (hCompile : compile text = .ok s)
    {m : Message TypeRef}
    (hMessage : m ∈ s.messages)
    (data : List UInt8) :
    ((∃ v, decode s m.name data = .ok v) ∨
      (∃ fault, decode s m.name data = .error (.wire fault))) ∧
    (∀ v, decode s m.name data = .ok v →
      (∃ bytes,
        v.encode s = .ok bytes ∧
          bytes.length ≤ data.length) ∨
      (∃ f ∈ m.fields, ∃ zero,
        f.optional = false ∧ v.get? f.name = some zero ∧
          zero.isZero s = true ∧
          v.encode s =
            .error (.wire (.missingField f.name)))) ∧
    (∀ (depth : Nat) (c : Cursor) (v : Value)
        (bytes : List UInt8),
      c.remaining.length ≤ depth →
        decodeWithin s depth m.name c.remaining = .ok v →
        v.encode s = .ok bytes →
        ∃ c', Reader.skip bytes.length c = (.ok (), c')) := by
  have hs := Schema.wellFormed_of_compile hCompile
  have hFound := Schema.message?_of_mem hs hMessage
  refine ⟨?_, ?_, ?_⟩
  · cases hDecode : decode s m.name data with
    | ok v => exact Or.inl ⟨v, rfl⟩
    | error e =>
        rcases decode_eq_wire_error hs hMessage hDecode with
          ⟨fault, rfl⟩
        exact Or.inr ⟨fault, rfl⟩
  · intro v hDecode
    exact encode_of_decodes hs hFound
      (decode_eq_ok_iff.mp hDecode)
  · intro depth c v bytes hDepth hDecode hEncode
    rw [decodeWithin_eq m.name hDepth] at hDecode
    have hFits : bytes.length ≤ c.remaining.length := by
      rcases encode_of_decodes hs hFound
          (decode_eq_ok_iff.mp hDecode) with
        ⟨bytes', hEncode', hLe⟩ |
        ⟨f, _, _, _, _, _, hError⟩
      · rw [hEncode] at hEncode'
        cases hEncode'
        exact hLe
      · rw [hEncode] at hError
        cases hError
    rcases c.exists_passes_take bytes.length with
      ⟨c', hPasses⟩
    exact ⟨c', Reader.skip_eq_ok_iff.mpr
      ⟨_, List.length_take_of_le hFits, hPasses⟩⟩

open Sample in
/-
  An envelope whose header has an empty list in so many words.
  The header is encoded without it, so that the list is read a
  second time, as a checksum of zero.
-/
theorem decode_framed_envelope :
    compile casesText = .ok casesSchema ∧
    Envelope.declaration ∈ casesSchema.messages ∧
    ((∃ v,
        decode casesSchema "Envelope"
          [1, 1, 1, 0, 0, 0, 107, 2, 0, 0, 0, 0] = .ok v) ∨
      (∃ fault,
        decode casesSchema "Envelope"
            [1, 1, 1, 0, 0, 0, 107, 2, 0, 0, 0, 0] =
          .error (.wire fault))) ∧
    (∀ v,
      decode casesSchema "Envelope"
          [1, 1, 1, 0, 0, 0, 107, 2, 0, 0, 0, 0] = .ok v →
      (∃ bytes,
        v.encode casesSchema = .ok bytes ∧
          bytes.length ≤ 12) ∨
      (∃ f ∈ Envelope.declaration.fields, ∃ zero,
        f.optional = false ∧ v.get? f.name = some zero ∧
          zero.isZero casesSchema = true ∧
          v.encode casesSchema =
            .error (.wire (.missingField f.name)))) ∧
    (∀ (depth : Nat) (c : Cursor) (v : Value)
        (bytes : List UInt8),
      c.remaining.length ≤ depth →
        decodeWithin casesSchema depth "Envelope"
          c.remaining = .ok v →
        v.encode casesSchema = .ok bytes →
        ∃ c', Reader.skip bytes.length c = (.ok (), c')) := by
  have hMessage :
      Envelope.declaration ∈ casesSchema.messages := by
    decide
  exact ⟨compile_casesText, hMessage,
    decode_framed compile_casesText hMessage _⟩

end Value

end TagWire
