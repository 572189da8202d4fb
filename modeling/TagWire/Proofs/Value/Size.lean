import TagWire.Proofs.Value.Compatibility
import TagWire.Proofs.Value.Framing
import TagWire.Proofs.Value.Typing

/-
  How much comes out of a decoder. The number of elements and
  entries is read from the bytes, and nothing checks it
  against the bytes that are left. Yet each of them takes up
  bytes of its own: at least one, if no message without
  required fields is an element. So there are no more of them
  than bytes, at all depths together.

  Main declarations:
    * `Value.memberCount`
    * `Schema.ElementsTakeBytes`
    * `Value.memberCount_le_of_encodeAs`
    * `Value.memberCount_le_of_reads_fields`
    * `Value.memberCount_decode_le`
-/

------------------------------------------------------------
-- Elements and Entries
------------------------------------------------------------

namespace TagWire

namespace Value

mutual

/- The elements of lists and entries of maps in a value. -/
def memberCount : Value → Nat
| number _ _ => 0
| string _ => 0
| enum _ _ => 0
| list elements => elementMembers elements
| map entries => entryMembers entries
| message _ fields => fieldMembers fields

/- The elements themselves, and what is in them. -/
def elementMembers : List Value → Nat
| [] => 0
| v :: rest => (v.memberCount + 1) + elementMembers rest

/- The entries themselves, and what is in their values. -/
def entryMembers : List (MapKey × Value) → Nat
| [] => 0
| (_, v) :: rest => (v.memberCount + 1) + entryMembers rest

/- What is in the values of fields. -/
def fieldMembers : List (String × Value) → Nat
| [] => 0
| (_, v) :: rest => v.memberCount + fieldMembers rest

end

theorem fieldMembers_eq
    (fields : List (String × Value)) :
    fieldMembers fields =
      (fields.map fun e => e.2.memberCount).sum := by
  induction fields with
  | nil => rw [fieldMembers, List.map_nil, List.sum_nil]
  | cons e rest ih =>
      rw [fieldMembers, ih, List.map_cons, List.sum_cons]

variable {s : ResolvedSchema}

/- There is nothing in a zero value. -/
theorem memberCount_of_isZero
    {v : Value}
    (h : v.isZero s = true) :
    v.memberCount = 0 := by
  cases v with
  | list elements =>
      rw [isZero, List.isEmpty_iff] at h
      rw [memberCount, h, elementMembers]
  | map entries =>
      rw [isZero, List.isEmpty_iff] at h
      rw [memberCount, h, entryMembers]
  | message name fields =>
      rw [isZero] at h
      cases h
  | _ => rw [memberCount]

end Value

end TagWire

------------------------------------------------------------
-- Types That Take Bytes
------------------------------------------------------------

namespace TagWire

namespace Schema

/- A message of the type has a field that has to be set. -/
def TakesBytes
    (s : ResolvedSchema)
    (type : ResolvedType) : Prop :=
  ∀ name m, type = .named (.message name) →
    s.message? name = some m →
      ∃ f ∈ m.fields, f.optional = false

/- So do all messages that are the elements of a list. -/
def ElementsTakeBytes
    (s : ResolvedSchema)
    (type : ResolvedType) : Prop :=
  ∀ element, TypeExpr.Part (.list element) type →
    s.TakesBytes element

variable {s : ResolvedSchema}

theorem elementsTakeBytes_scalar
    (kind : ScalarKind) :
    s.ElementsTakeBytes (.scalar kind) := by
  intro element hPart
  cases hPart

theorem elementsTakeBytes_named
    (reference : TypeRef) :
    s.ElementsTakeBytes (.named reference) := by
  intro element hPart
  cases hPart

/- The elements of a list take bytes, and those in them. -/
theorem elementsTakeBytes_list_iff
    {element : ResolvedType} :
    s.ElementsTakeBytes (.list element) ↔
      s.TakesBytes element ∧ s.ElementsTakeBytes element := by
  simp only [ElementsTakeBytes, TypeExpr.part_list_iff,
    TypeExpr.list.injEq, forall_eq_or_imp]

/- The elements in the values of a map take bytes. -/
theorem elementsTakeBytes_map_iff
    {key : ScalarKind}
    {value : ResolvedType} :
    s.ElementsTakeBytes (.map key value) ↔
      s.ElementsTakeBytes value := by
  simp [ElementsTakeBytes, TypeExpr.part_map_iff]

end Schema

end TagWire

------------------------------------------------------------
-- Sizes of Encodings
------------------------------------------------------------

namespace TagWire

namespace Value

open Schema

variable {s : ResolvedSchema}

/- A string takes up its length at least. -/
theorem length_of_encodeString_pos
    {text : String}
    {bytes : List UInt8}
    (h : encodeString text = .ok bytes) :
    0 < bytes.length := by
  simp only [encodeString, Outcome.bind_eq_ok_iff,
    Outcome.pure_eq_ok_iff] at h
  rcases h with ⟨size, hSize, rfl⟩
  rw [List.length_append, length_of_encodeLength hSize]
  omega

/- Every key takes up bytes. -/
theorem length_of_encodeKey_pos
    {kind : ScalarKind}
    {key : MapKey}
    {bytes : List UInt8}
    (h : encodeKey kind key = .ok bytes) :
    0 < bytes.length := by
  rcases encodeKey_eq_ok_iff.mp h with
    ⟨k, word, _, _, rfl⟩ | ⟨text, _, _, hText⟩
  · rw [LittleEndian.length_encode]
    cases k <;> decide
  · exact length_of_encodeString_pos hText

/- Elements are as many as their bytes if each takes some. -/
theorem elementMembers_le
    {field : String}
    {element : ResolvedType}
    {vs : List Value}
    {inner : List UInt8}
    (hEach :
      ∀ v ∈ vs, ∀ bytes,
        encodeAs s field element v = .ok bytes →
          v.memberCount + 1 ≤ bytes.length)
    (h : encodeElements s field element vs = .ok inner) :
    elementMembers vs ≤ inner.length := by
  induction vs generalizing inner with
  | nil => exact Nat.zero_le _
  | cons v rest ih =>
      rcases List.forall_mem_cons.mp hEach with
        ⟨hFirst, hOthers⟩
      rcases encodeElements_cons_eq_ok_iff.mp h with
        ⟨head, tail, hHead, hTail, rfl⟩
      rw [elementMembers, List.length_append]
      exact Nat.add_le_add (hFirst head hHead)
        (ih hOthers hTail)

/- Entries take some bytes already for their keys. -/
theorem entryMembers_le
    {field : String}
    {key : ScalarKind}
    {type : ResolvedType}
    {entries : List (MapKey × Value)}
    {inner : List UInt8}
    (hEach :
      ∀ e ∈ entries, ∀ bytes,
        encodeAs s field type e.2 = .ok bytes →
          e.2.memberCount ≤ bytes.length)
    (h : encodeEntries s field key type entries = .ok inner) :
    entryMembers entries ≤ inner.length := by
  induction entries generalizing inner with
  | nil => exact Nat.zero_le _
  | cons e rest ih =>
      rcases List.forall_mem_cons.mp hEach with
        ⟨hFirst, hOthers⟩
      rcases encodeEntries_cons_eq_ok_iff.mp h with
        ⟨front, head, tail, hKey, hHead, hTail, rfl⟩
      have hFront := length_of_encodeKey_pos hKey
      have hValue := hFirst head hHead
      have hRest := ih hOthers hTail
      rw [entryMembers, List.length_append,
        List.length_append]
      omega

------------------------------------------------------------
-- Sizes of Messages
------------------------------------------------------------

/- What is in the field of a name, if it is there. -/
def membersAt
    (fields : List (String × Value))
    (name : String) :
    Nat :=
  ((fields.lookup name).map memberCount).getD 0

/- Every field of a message has the name of a declared one. -/
theorem fieldMembers_le_sum
    {fields : List (String × Value)}
    {names : List String}
    (hNodup : (fields.map Prod.fst).Nodup)
    (hNames : fields.map Prod.fst ⊆ names) :
    fieldMembers fields ≤
      (names.map (membersAt fields)).sum := by
  have hEach :
      ∀ e ∈ fields,
        e.2.memberCount = membersAt fields e.1 := by
    intro e he
    rw [membersAt, Keyed.lookup_of_mem hNodup he]
    rfl
  rcases List.subperm_of_subset hNodup hNames with
    ⟨kept, hPerm, hSublist⟩
  calc
    fieldMembers fields
        = (fields.map fun e => membersAt fields e.1).sum := by
          rw [fieldMembers_eq, List.map_congr_left hEach]
    _ = ((fields.map Prod.fst).map (membersAt fields)).sum := by
          rw [List.map_map]
          rfl
    _ = (kept.map (membersAt fields)).sum :=
          (hPerm.map (membersAt fields)).sum_eq.symm
    _ ≤ (names.map (membersAt fields)).sum :=
          (hSublist.map (membersAt fields)).sum_le_sum
            (fun _ _ => Nat.zero_le _)

/- A set field takes up a byte for its tag. -/
theorem membersAt_le_of_encodeField
    {f : Field TypeRef}
    {fields : List (String × Value)}
    {part : List UInt8}
    (hEach :
      ∀ v bytes, fields.lookup f.name = some v →
        encodeAs s f.name f.type v = .ok bytes →
          v.memberCount ≤ bytes.length)
    (h : encodeField s f fields = .ok part) :
    membersAt fields f.name + (!f.optional).toNat ≤
      part.length := by
  rcases encodeField_eq_ok_iff.mp h with
    ⟨v, inner, hLookup, _, hInner, rfl⟩ |
    ⟨hUnset, hOptional, rfl⟩
  · have hLe := hEach v inner hLookup hInner
    have hTag := Bool.toNat_le (!f.optional)
    rw [membersAt, hLookup, List.length_cons]
    exact Nat.add_le_add hLe hTag
  · rw [hOptional, membersAt]
    cases hLookup : fields.lookup f.name with
    | none => exact Nat.le_refl _
    | some v =>
        exact
          (memberCount_of_isZero (hUnset v hLookup)).le

/- The fields of a message take up bytes for what is in them. -/
theorem sum_membersAt_le
    {declared : List (Field TypeRef)}
    {fields : List (String × Value)}
    {parts : List (List UInt8)}
    (hEach :
      ∀ f ∈ declared, ∀ v bytes,
        fields.lookup f.name = some v →
          encodeAs s f.name f.type v = .ok bytes →
            v.memberCount ≤ bytes.length)
    (h :
      declared.mapM (fun f => encodeField s f fields) =
        .ok parts) :
    ((declared.map Field.name).map (membersAt fields)).sum +
        (declared.map fun f => (!f.optional).toNat).sum ≤
      parts.flatten.length := by
  induction declared generalizing parts with
  | nil =>
      cases h
      exact Nat.le_refl _
  | cons f declared ih =>
      rcases List.forall_mem_cons.mp hEach with
        ⟨hFirst, hOthers⟩
      simp only [List.mapM_cons, Outcome.bind_eq_ok_iff,
        Outcome.pure_eq_ok_iff] at h
      rcases h with ⟨part, hPart, parts, hParts, rfl⟩
      have hHere := membersAt_le_of_encodeField hFirst hPart
      have hRest := ih hOthers hParts
      simp only [List.map_cons, List.sum_cons,
        List.flatten_cons, List.length_append]
      omega

/-
  What is in a value is no more than its bytes, and less if
  the type takes bytes in any case. By induction on the value.
-/
theorem memberCount_le_of_encodeAs
    (hElements :
      ∀ m ∈ s.messages, ∀ f ∈ m.fields,
        s.ElementsTakeBytes f.type)
    {field : String}
    {type : ResolvedType}
    {v : Value}
    {bytes : List UInt8}
    (hType : s.ElementsTakeBytes type)
    (hConforms : Conforms s type v)
    (h : encodeAs s field type v = .ok bytes) :
    v.memberCount ≤ bytes.length ∧
      (s.TakesBytes type →
        v.memberCount + 1 ≤ bytes.length) := by
  induction v using Value.induct
      generalizing field type bytes with
  | number kind word =>
      rcases encodeAs_number_eq_ok_iff.mp h with ⟨_, rfl⟩
      have hSize : 0 < kind.size := by
        rcases kind with k | k <;> cases k <;> decide
      rw [memberCount, LittleEndian.length_encode]
      exact ⟨Nat.zero_le _, fun _ => hSize⟩
  | string text =>
      rcases encodeAs_string_eq_ok_iff.mp h with ⟨_, hText⟩
      rw [memberCount]
      exact ⟨Nat.zero_le _,
        fun _ => length_of_encodeString_pos hText⟩
  | enum name variant =>
      rcases encodeAs_enum_eq_ok_iff.mp h with
        ⟨_, _, _, _, _, _, rfl⟩
      rw [memberCount, LittleEndian.length_bytes]
      omega
  | list elements ih =>
      rcases encodeAs_list_eq_ok_iff.mp h with
        ⟨element, size, inner, rfl, hSize, hInner, rfl⟩
      cases hConforms with
      | list hValues =>
          rcases elementsTakeBytes_list_iff.mp hType with
            ⟨hTakes, hInside⟩
          have hLe :=
            elementMembers_le
              (fun v hv bytes hBytes =>
                (ih v hv hInside (hValues v hv) hBytes).2
                  hTakes)
              hInner
          rw [memberCount, List.length_append,
            length_of_encodeLength hSize]
          omega
  | map entries ih =>
      rcases encodeAs_map_eq_ok_iff.mp h with
        ⟨key, value, size, inner, rfl, hSize, hInner, rfl⟩
      cases hConforms with
      | map _ _ hValues =>
          have hInside := elementsTakeBytes_map_iff.mp hType
          have hLe :=
            entryMembers_le
              (fun e he bytes hBytes =>
                (ih e he hInside (hValues e he) hBytes).1)
              hInner
          rw [memberCount, List.length_append,
            length_of_encodeLength hSize]
          omega
  | message name fields ih =>
      rcases encodeAs_message_eq_ok_iff.mp h with
        ⟨_, _, hEncode⟩
      rcases encode_message_eq_ok_iff.mp hEncode with
        ⟨m, parts, hFound, hParts, rfl⟩
      cases hConforms with
      | message hMessage _ hAscending hDeclared hValues =>
          rw [hFound] at hMessage
          cases hMessage
          have hMem := (of_message?_eq_some hFound).1
          have hFields :=
            fieldMembers_le_sum
              (Keyed.nodup_of_ascending hAscending)
              (List.forall_mem_map.mpr hDeclared)
          have hSum :=
            sum_membersAt_le
              (fun f hf v bytes hLookup hBytes =>
                have hEntry := Keyed.mem_of_lookup hLookup
                (ih _ hEntry (hElements m hMem f hf)
                  (hValues _ hEntry f hf rfl) hBytes).1)
              hParts
          rw [memberCount]
          refine ⟨by omega, fun hTakes => ?_⟩
          rcases hTakes name m rfl hFound with
            ⟨f, hf, hRequired⟩
          have hSet :
              1 ≤
                (m.fields.map
                  fun f => (!f.optional).toNat).sum :=
            List.le_sum_of_mem
              (List.mem_map.mpr
                ⟨f, hf, by rw [hRequired]; rfl⟩)
          omega

end Value

end TagWire

------------------------------------------------------------
-- Sizes of Decoded Messages
------------------------------------------------------------

namespace TagWire

namespace Value

open Schema

variable {s : ResolvedSchema}

/-
  What is in the fields that are found is no more than the
  bytes that they are read from. A value that is read takes up
  its encoding at least.
-/
theorem fieldMembers_le_of_reads
    (hs : s.WellFormed)
    (hElements :
      ∀ m ∈ s.messages, ∀ f ∈ m.fields,
        s.ElementsTakeBytes f.type)
    {declared : List (Field TypeRef)}
    (hClosed : ∀ f ∈ declared, s.Closed f.type)
    (hTypes : ∀ f ∈ declared, s.ElementsTakeBytes f.type)
    {found : List (String × Value)}
    {ahead rest : List UInt8}
    (h : Reads s (.fields declared found) ahead rest) :
    fieldMembers found + rest.length ≤ ahead.length := by
  induction declared generalizing found ahead with
  | nil =>
      rcases Reads.fields_nil_iff.mp h with ⟨rfl, rfl⟩
      rw [fieldMembers, Nat.zero_add]
  | cons f declared ih =>
      rcases List.forall_mem_cons.mp hClosed with
        ⟨hHere, hOtherClosed⟩
      rcases List.forall_mem_cons.mp hTypes with
        ⟨hType, hOtherTypes⟩
      rcases Reads.fields_cons_iff.mp h with
        ⟨v, others, middle, behind, rfl, rfl, hValue,
         hOthers⟩ |
        ⟨_, _, hOthers⟩
      · have hRest := ih hOtherClosed hOtherTypes hOthers
        rcases framed_of_reads hValue f.name with
          ⟨bytes, hBytes, hFramed⟩
        have hConforms := hasType_of_reads hs hValue hHere
        have hLe :=
          (memberCount_le_of_encodeAs hElements hType
            hConforms hBytes).1
        rw [fieldMembers, List.length_cons]
        omega
      · exact ih hOtherClosed hOtherTypes hOthers

/-
  The elements and entries that are decoded, at all depths,
  are no more than the bytes that they are decoded from. The
  schema is an accepted one, and every message that it uses as
  an element of a list has a required field.
-/
theorem memberCount_decode_le
    {text : String}
    (hCompile : compile text = .ok s)
    (hElements :
      ∀ m ∈ s.messages, ∀ f ∈ m.fields,
        s.ElementsTakeBytes f.type)
    {m : Message TypeRef}
    (hMessage : m ∈ s.messages)
    {data : List UInt8}
    {v : Value}
    (hDecode : decode s m.name data = .ok v) :
    v.memberCount ≤ data.length := by
  have hs := wellFormed_of_compile hCompile
  rcases decode_eq_ok_iff.mp hDecode with
    ⟨m', found, rest, hFound, rfl, hFields⟩
  rw [message?_of_mem hs hMessage] at hFound
  cases hFound
  have hLe :=
    fieldMembers_le_of_reads hs hElements
      (hs.closed m hMessage) (hElements m hMessage) hFields
  calc
    (message m.name (Keyed.ofList found)).memberCount
        = ((Keyed.ofList found).map
            fun e => e.2.memberCount).sum := by
          rw [memberCount, fieldMembers_eq]
    _ ≤ (found.map fun e => e.2.memberCount).sum :=
          Keyed.sum_ofList_le _ found
    _ ≤ data.length := by
          rw [← fieldMembers_eq]
          omega

open Sample in
/- A point with one before it is read from more bytes. -/
theorem memberCount_decode_le_traced :
    ∃ v,
      decode tracedSchema "Point"
          [1, 5, 0, 0, 0, 3, 1, 0, 0, 0, 1, 6, 0, 0, 0] =
        .ok v ∧
      v.memberCount = 1 ∧ v.memberCount ≤ 15 := by
  have hPoint :
      tracedSchema.TakesBytes (.named (.message "Point")) := by
    intro name m hName hFound
    cases hName
    cases hFound
    exact ⟨_, List.mem_cons_self, rfl⟩
  have hElements :
      ∀ m ∈ tracedSchema.messages, ∀ f ∈ m.fields,
        tracedSchema.ElementsTakeBytes f.type := by
    intro m hm
    obtain rfl := List.mem_singleton.mp hm
    simpa [TracedPoint.declaration, elementsTakeBytes_scalar,
      elementsTakeBytes_named, elementsTakeBytes_list_iff]
      using hPoint
  have hDecode :
      decode tracedSchema "Point"
          [1, 5, 0, 0, 0, 3, 1, 0, 0, 0, 1, 6, 0, 0, 0] =
        .ok
          (message "Point"
            [
              ("trace",
                list
                  [message "Point"
                    [("x", number (.int .int32) 6)]]),
              ("x", number (.int .int32) 5)
            ]) := by
    rfl
  exact ⟨_, hDecode, rfl,
    memberCount_decode_le compile_tracedText hElements
      (m := TracedPoint.declaration)
      (List.mem_singleton_self _) hDecode⟩

end Value

end TagWire
