import TagWire.Proofs.Value.Canonical
import TagWire.Proofs.Value.Occurrence
import TagWire.Proofs.Value.Reading

/-
  An encoded message, with any bytes behind it, is decoded to
  its normal form exactly when nowhere in it a byte is mistaken
  for the tag of a field that is not set.

  Main declarations:
    * `Value.VariantsFit`
    * `Value.reads_elements_norm_iff`
    * `Value.reads_entries_norm_iff`
    * `Value.reads_fields_norm_iff`
    * `Value.reads_norm_iff`
    * `Value.decode_encode_append_iff`
-/

------------------------------------------------------------
-- Numbers of Variants
------------------------------------------------------------

namespace TagWire

namespace Value

variable {s : ResolvedSchema}

/-
  The number of every variant in a value fits the four bytes
  in which it is written.
-/
def VariantsFit
    (s : ResolvedSchema)
    (v : Value) : Prop :=
  ∀ name variant, Part (enum name variant) v →
    ∀ e index, s.enum? name = some e →
      e.variants.idxOf? variant = some index →
      index < 2 ^ 32

/- Few variants have small numbers. -/
theorem variantsFit_of_length_le
    (h : ∀ e ∈ s.enums, e.variants.length ≤ 2 ^ 32)
    (v : Value) :
    VariantsFit s v := by
  intro name variant _ e index hEnum hIndex
  have hMem := (Schema.of_enum?_eq_some hEnum).1
  rcases List.idxOf?_eq_some_iff.mp hIndex with ⟨hLt, _⟩
  exact Nat.lt_of_lt_of_le hLt (h e hMem)

theorem variantsFit_number
    (kind : NumKind)
    (word : kind.Word) :
    VariantsFit s (number kind word) := by
  intro name variant hPart
  cases hPart

theorem variantsFit_string
    (text : String) :
    VariantsFit s (string text) := by
  intro name variant hPart
  cases hPart

/- A single variant fits when its number does. -/
theorem variantsFit_enum_iff
    {name variant : String}
    {e : EnumDecl}
    {index : Nat}
    (hEnum : s.enum? name = some e)
    (hIndex : e.variants.idxOf? variant = some index) :
    VariantsFit s (enum name variant) ↔ index < 2 ^ 32 := by
  constructor
  · intro h
    exact h name variant .refl e index hEnum hIndex
  · intro h name' variant' hPart e' index' hEnum' hIndex'
    cases hPart
    rw [hEnum] at hEnum'
    cases hEnum'
    rw [hIndex] at hIndex'
    cases hIndex'
    exact h

theorem variantsFit_list_iff
    {vs : List Value} :
    VariantsFit s (list vs) ↔ ∀ v ∈ vs, VariantsFit s v := by
  constructor
  · intro h v hMem name variant hPart
    exact h name variant (.element hMem hPart)
  · intro h name variant hPart
    rcases part_list_iff.mp hPart with hSame | ⟨v, hMem, hPart⟩
    · cases hSame
    · exact h v hMem name variant hPart

theorem variantsFit_map_iff
    {entries : List (MapKey × Value)} :
    VariantsFit s (map entries) ↔
      ∀ e ∈ entries, VariantsFit s e.2 := by
  constructor
  · intro h e hMem name variant hPart
    exact h name variant (.entry hMem hPart)
  · intro h name variant hPart
    rcases part_map_iff.mp hPart with hSame | ⟨e, hMem, hPart⟩
    · cases hSame
    · exact h e hMem name variant hPart

theorem variantsFit_message_iff
    {name : String}
    {fields : List (String × Value)} :
    VariantsFit s (message name fields) ↔
      ∀ e ∈ fields, VariantsFit s e.2 := by
  constructor
  · intro h e hMem name' variant hPart
    exact h name' variant (.field hMem hPart)
  · intro h name' variant hPart
    rcases part_message_iff.mp hPart with
      hSame | ⟨e, hMem, hPart⟩
    · cases hSame
    · exact h e hMem name' variant hPart

/- The first variant has a small number. -/
theorem variantsFit_of_isZero
    {v : Value}
    (h : v.isZero s = true) :
    VariantsFit s v := by
  cases v with
  | number kind word => exact variantsFit_number kind word
  | string text => exact variantsFit_string text
  | list vs =>
      rw [isZero, List.isEmpty_iff] at h
      subst h
      exact variantsFit_list_iff.mpr
        fun v hMem => absurd hMem List.not_mem_nil
  | map entries =>
      rw [isZero, List.isEmpty_iff] at h
      subst h
      exact variantsFit_map_iff.mpr
        fun e hMem => absurd hMem List.not_mem_nil
  | message name fields =>
      rw [isZero] at h
      cases h
  | enum name variant =>
      intro name' variant' hPart e index hEnum hIndex
      cases hPart
      rw [isZero, hEnum] at h
      rcases List.head?_eq_some_iff.mp (eq_of_beq h) with
        ⟨others, hVariants⟩
      rw [hVariants, List.idxOf?_cons] at hIndex
      simp at hIndex
      omega

end Value

end TagWire

------------------------------------------------------------
-- Elements
------------------------------------------------------------

namespace TagWire

namespace Value

variable {s : ResolvedSchema}

/-
  When the normal form of a value is read off its encoding:
  the statement that is proved by induction on values.
-/
def RoundTrips
    (s : ResolvedSchema)
    (type : ResolvedType)
    (v : Value) : Prop :=
  ∀ field bytes rest behind,
    encodeAs s field type v = .ok bytes →
    (Reads s (.value type (v.norm s)) (bytes ++ rest) behind ↔
      behind = rest ∧
        Undisturbed s type v (bytes ++ rest) ∧
        VariantsFit s v)

/- Elements are read when each is, one behind the other. -/
theorem reads_elements_norm_iff
    {element : ResolvedType}
    {field : String}
    {vs : List Value}
    {inner rest behind : List UInt8}
    (hEach : ∀ v ∈ vs, RoundTrips s element v)
    (h : encodeElements s field element vs = .ok inner) :
    Reads s (.elements element (vs.map (norm s)))
        (inner ++ rest) behind ↔
      behind = rest ∧
        ElementsUndisturbed s element vs (inner ++ rest) ∧
        ∀ v ∈ vs, VariantsFit s v := by
  induction vs generalizing inner with
  | nil =>
      rw [encodeElements] at h
      cases h
      rw [List.map_nil, Reads.elements_nil_iff]
      constructor
      · intro h
        rcases h with rfl
        exact ⟨rfl, elementsUndisturbed_nil, by simp⟩
      · intro h
        rcases h with ⟨rfl, _⟩
        rfl
  | cons v vs ih =>
      rcases List.forall_mem_cons.mp hEach with
        ⟨hFirst, hOthers⟩
      rcases encodeElements_cons_eq_ok_iff.mp h with
        ⟨head, tail, hHead, hTail, rfl⟩
      rw [List.map_cons, Reads.elements_cons_iff,
        List.forall_mem_cons, List.append_assoc,
        elementsUndisturbed_cons_iff hHead]
      constructor
      · intro h
        rcases h with ⟨middle, hValue, hRest⟩
        rcases (hFirst field head _ _ hHead).mp hValue with
          ⟨rfl, hHere, hFits⟩
        rcases (ih hOthers hTail).mp hRest with
          ⟨rfl, hThere, hAllFit⟩
        exact ⟨rfl, ⟨hHere, hThere⟩, hFits, hAllFit⟩
      · intro h
        rcases h with
          ⟨rfl, ⟨hHere, hThere⟩, hFits, hAllFit⟩
        exact
          ⟨_, (hFirst field head _ _ hHead).mpr
              ⟨rfl, hHere, hFits⟩,
            (ih hOthers hTail).mpr ⟨rfl, hThere, hAllFit⟩⟩

------------------------------------------------------------
-- Entries
------------------------------------------------------------

/- A key is read in one way only. -/
theorem eq_of_encodeKey_append
    {key : ScalarKind}
    {k k' : MapKey}
    {bytes bytes' rest rest' : List UInt8}
    (h : encodeKey key k = .ok bytes)
    (h' : encodeKey key k' = .ok bytes')
    (hSame : bytes ++ rest = bytes' ++ rest') :
    k = k' ∧ rest = rest' := by
  rcases
      Cursor.exists_passes
        (Cursor.remaining_start (bytes ++ rest)) with
    ⟨d, hPasses, hRest⟩
  rcases
      Cursor.exists_passes
        ((Cursor.remaining_start (bytes ++ rest)).trans hSame) with
    ⟨d', hPasses', hRest'⟩
  have hRead := decodeKey_eq_ok_iff.mpr ⟨bytes, h, hPasses⟩
  have hRead' := decodeKey_eq_ok_iff.mpr ⟨bytes', h', hPasses'⟩
  rw [hRead] at hRead'
  cases hRead'
  exact ⟨rfl, hRest.symm.trans hRest'⟩

/- Entries are read when each is, one behind the other. -/
theorem reads_entries_norm_iff
    {key : ScalarKind}
    {type : ResolvedType}
    {field : String}
    {entries : List (MapKey × Value)}
    {inner rest behind : List UInt8}
    (hEach : ∀ e ∈ entries, RoundTrips s type e.2)
    (h : encodeEntries s field key type entries = .ok inner) :
    Reads s
        (.entries key type
          (entries.map (Prod.map id (norm s))))
        (inner ++ rest) behind ↔
      behind = rest ∧
        EntriesUndisturbed s key type entries
          (inner ++ rest) ∧
        ∀ e ∈ entries, VariantsFit s e.2 := by
  induction entries generalizing inner with
  | nil =>
      rw [encodeEntries] at h
      cases h
      rw [List.map_nil, Reads.entries_nil_iff]
      constructor
      · intro h
        rcases h with rfl
        exact ⟨rfl, entriesUndisturbed_nil, by simp⟩
      · intro h
        rcases h with ⟨rfl, _⟩
        rfl
  | cons e entries ih =>
      rcases List.forall_mem_cons.mp hEach with
        ⟨hFirst, hOthers⟩
      rcases encodeEntries_cons_eq_ok_iff.mp h with
        ⟨front, head, tail, hKey, hHead, hTail, rfl⟩
      rw [List.map_cons, Reads.entries_cons_iff,
        List.forall_mem_cons, List.append_assoc,
        List.append_assoc,
        entriesUndisturbed_cons_iff hKey hHead]
      constructor
      · intro h
        rcases h with
          ⟨bytes, middle, between, hBytes, hSplit, hValue,
           hRest⟩
        rcases
            eq_of_encodeKey_append hKey hBytes hSplit with
          ⟨_, rfl⟩
        rcases (hFirst field head _ _ hHead).mp hValue with
          ⟨rfl, hHere, hFits⟩
        rcases (ih hOthers hTail).mp hRest with
          ⟨rfl, hThere, hAllFit⟩
        exact ⟨rfl, ⟨hHere, hThere⟩, hFits, hAllFit⟩
      · intro h
        rcases h with
          ⟨rfl, ⟨hHere, hThere⟩, hFits, hAllFit⟩
        exact
          ⟨front, _, _, hKey, rfl,
            (hFirst field head _ _ hHead).mpr
              ⟨rfl, hHere, hFits⟩,
            (ih hOthers hTail).mpr ⟨rfl, hThere, hAllFit⟩⟩

/- A binding among different ones is an entry's normal form. -/
theorem norm_of_mem_bound
    {entries bound : List (MapKey × Value)}
    (hAscending :
      Keyed.Ascending (entries.map (Prod.map id (norm s))))
    (hNodup : (bound.map Prod.fst).Nodup)
    (hBound :
      entries.map (Prod.map id (norm s)) =
        Keyed.ofList bound)
    {k : MapKey}
    {v v' : Value}
    (hv : (k, v) ∈ entries)
    (hv' : (k, v') ∈ bound) :
    v' = v.norm s := by
  have hMem :
      (k, v.norm s) ∈ entries.map (Prod.map id (norm s)) :=
    List.mem_map_of_mem hv
  have hFind :=
    Keyed.lookup_of_mem (Keyed.nodup_of_ascending hAscending)
      hMem
  rw [hBound, Keyed.lookup_ofList_of_nodup hNodup,
    Keyed.lookup_of_mem hNodup hv'] at hFind
  exact Option.some.inj hFind

/-
  Bindings that are read off an encoding, and that find what
  the entries find, are the entries in their order: the keys
  are read in that order, and each decides about the value.
-/
theorem bound_eq_of_reads
    {key : ScalarKind}
    {type : ResolvedType}
    {field : String}
    {entries bound : List (MapKey × Value)}
    {inner rest behind : List UInt8}
    (hEach : ∀ e ∈ entries, RoundTrips s type e.2)
    (h : encodeEntries s field key type entries = .ok inner)
    (hLength : bound.length = entries.length)
    (hSame :
      ∀ k v v', (k, v) ∈ entries → (k, v') ∈ bound →
        v' = v.norm s)
    (hReads :
      Reads s (.entries key type bound) (inner ++ rest)
        behind) :
    bound = entries.map (Prod.map id (norm s)) := by
  induction entries generalizing bound inner with
  | nil => exact List.length_eq_zero_iff.mp hLength
  | cons e entries ih =>
      rcases e with ⟨k, v⟩
      cases bound with
      | nil => cases hLength
      | cons e' bound =>
          rcases e' with ⟨k', v'⟩
          rcases List.forall_mem_cons.mp hEach with
            ⟨hFirst, hOthers⟩
          rcases encodeEntries_cons_eq_ok_iff.mp h with
            ⟨front, head, tail, hKey, hHead, hTail, rfl⟩
          rcases Reads.entries_cons_iff.mp hReads with
            ⟨bytes, middle, between, hBytes, hSplit, hValue,
             hRest⟩
          rw [List.append_assoc, List.append_assoc] at hSplit
          rcases
              eq_of_encodeKey_append hKey hBytes hSplit with
            ⟨rfl, rfl⟩
          obtain rfl :=
            hSame k v v' List.mem_cons_self List.mem_cons_self
          rcases
              (hFirst field head _ _ hHead).mp hValue with
            ⟨rfl, _, _⟩
          have hTailEq :=
            ih hOthers hTail (Nat.succ.inj hLength)
              (fun k w w' hw hw' =>
                hSame k w w' (List.mem_cons_of_mem _ hw)
                  (List.mem_cons_of_mem _ hw'))
              hRest
          rw [hTailEq, List.map_cons]
          rfl

end Value

end TagWire

------------------------------------------------------------
-- Fields
------------------------------------------------------------

namespace TagWire

namespace Value

variable {s : ResolvedSchema}

/- The lookups of some declared fields are alike. -/
def FindsAlike
    (declared : List (Field TypeRef))
    (found fields : List (String × Value)) : Prop :=
  ∀ f ∈ declared, found.lookup f.name = fields.lookup f.name

/- A found field in front matters to its own name only. -/
theorem findsAlike_cons_iff
    {f : Field TypeRef}
    {declared : List (Field TypeRef)}
    {v : Value}
    {found fields : List (String × Value)}
    (hName : f.name ∉ declared.map Field.name) :
    FindsAlike (f :: declared) ((f.name, v) :: found) fields ↔
      fields.lookup f.name = some v ∧
        FindsAlike declared found fields := by
  unfold FindsAlike
  rw [List.forall_mem_cons, List.lookup_cons_self]
  refine and_congr eq_comm ?_
  refine forall₂_congr fun g hg => ?_
  rw [lookup_cons_of_mem hName v found hg]

/-
  A set field of a normal form is read when its value is, and
  the fields behind it are read on from there.
-/
private theorem reads_set_norm_iff
    {fields : List (String × Value)}
    (hKeys : (fields.map Prod.fst).Nodup)
    {f : Field TypeRef}
    {declared : List (Field TypeRef)}
    (hName : f.name ∉ declared.map Field.name)
    {v : Value}
    (hLookup : fields.lookup f.name = some v)
    (hSet : v.isZero s = false)
    (hValue : RoundTrips s f.type v)
    {inner ahead behind : List UInt8}
    (hInner : encodeAs s f.name f.type v = .ok inner) :
    (∃ found,
      FindsAlike (f :: declared) found (normFields s fields) ∧
        Reads s (.fields (f :: declared) found)
          (f.seq :: inner ++ ahead) behind) ↔
      (Undisturbed s f.type v (inner ++ ahead) ∧
        VariantsFit s v) ∧
      ∃ found,
        FindsAlike declared found (normFields s fields) ∧
          Reads s (.fields declared found) ahead behind := by
  have hNorm :
      (normFields s fields).lookup f.name = some (v.norm s) :=
    (lookup_normFields_eq_some_iff hKeys).mpr
      ⟨v, hLookup, hSet, rfl⟩
  have hValue := hValue f.name inner ahead
  simp only [Reads.fields_cons_iff]
  constructor
  · intro h
    rcases h with
      ⟨found, hAlike, ⟨v', others, middle, between, rfl,
       hAhead, hRead, hReads⟩ | ⟨hHead, _⟩⟩
    · rw [findsAlike_cons_iff hName, hNorm] at hAlike
      rcases hAlike with ⟨hSame, hAlike⟩
      cases hSame
      cases hAhead
      rcases (hValue _ hInner).mp hRead with ⟨rfl, hHere⟩
      exact ⟨hHere, others, hAlike, hReads⟩
    · exact absurd rfl hHead
  · intro h
    rcases h with ⟨hHere, others, hAlike, hReads⟩
    have hRead := (hValue _ hInner).mpr ⟨rfl, hHere⟩
    refine
      ⟨(f.name, v.norm s) :: others, ?_,
        Or.inl ⟨_, others, _, _, rfl, rfl, hRead, hReads⟩⟩
    exact (findsAlike_cons_iff hName).mpr ⟨hNorm, hAlike⟩

/- The tag of a field that is not set must not be in front. -/
private theorem reads_unset_norm_iff
    {fields : List (String × Value)}
    (hKeys : (fields.map Prod.fst).Nodup)
    {f : Field TypeRef}
    {declared : List (Field TypeRef)}
    (hName : f.name ∉ declared.map Field.name)
    (hUnset :
      ∀ v, fields.lookup f.name = some v → v.isZero s = true)
    (hOptional : f.optional = true)
    {ahead behind : List UInt8} :
    (∃ found,
      FindsAlike (f :: declared) found (normFields s fields) ∧
        Reads s (.fields (f :: declared) found) ahead
          behind) ↔
      ahead.head? ≠ some f.seq ∧
      ∃ found,
        FindsAlike declared found (normFields s fields) ∧
          Reads s (.fields declared found) ahead behind := by
  have hNorm : (normFields s fields).lookup f.name = none :=
    (lookup_normFields_eq_none_iff hKeys).mpr hUnset
  simp only [Reads.fields_cons_iff]
  constructor
  · intro h
    rcases h with
      ⟨found, hAlike, ⟨v', others, middle, between, rfl, _⟩ |
        ⟨hHead, _, hReads⟩⟩
    · rw [findsAlike_cons_iff hName, hNorm] at hAlike
      cases hAlike.1
    · rcases List.forall_mem_cons.mp hAlike with ⟨_, hAlike⟩
      exact ⟨hHead, found, hAlike, hReads⟩
  · intro h
    rcases h with ⟨hHead, found, hAlike, hReads⟩
    have hNotMem : f.name ∉ found.map Prod.fst :=
      fun hMem => hName (hReads.names.subset hMem)
    refine ⟨found, ?_, Or.inr ⟨hHead, hOptional, hReads⟩⟩
    refine List.forall_mem_cons.mpr ⟨?_, hAlike⟩
    rw [hNorm, Keyed.lookup_eq_none_of_not_mem hNotMem]

/- What a field that is set asks of the bytes at its place. -/
private theorem fieldUndisturbed_set_iff
    {fields : List (String × Value)}
    (hKeys : (fields.map Prod.fst).Nodup)
    {f : Field TypeRef}
    {v : Value}
    (hLookup : fields.lookup f.name = some v)
    (hSet : v.isZero s = false)
    {bytes : List UInt8} :
    FieldUndisturbed s fields f (f.seq :: bytes) ↔
      Undisturbed s f.type v bytes := by
  have hNorm :
      (normFields s fields).lookup f.name = some (v.norm s) :=
    (lookup_normFields_eq_some_iff hKeys).mpr
      ⟨v, hLookup, hSet, rfl⟩
  simp [FieldUndisturbed, hNorm, hLookup, hSet]

/- What one that is not set asks of them. -/
private theorem fieldUndisturbed_unset_iff
    {fields : List (String × Value)}
    (hKeys : (fields.map Prod.fst).Nodup)
    {f : Field TypeRef}
    (hUnset :
      ∀ v, fields.lookup f.name = some v → v.isZero s = true)
    {bytes : List UInt8} :
    FieldUndisturbed s fields f bytes ↔
      bytes.head? ≠ some f.seq := by
  have hNorm : (normFields s fields).lookup f.name = none :=
    (lookup_normFields_eq_none_iff hKeys).mpr hUnset
  constructor
  · exact fun h => h.1 hNorm
  · intro h
    refine ⟨fun _ => h, fun v hLookup hSet => ?_⟩
    rw [hUnset v hLookup] at hSet
    cases hSet

/-
  The fields of a normal form are read when each set field is,
  and when no tag of an unset one stands where it would.
-/
theorem reads_fields_norm_iff
    {fields : List (String × Value)}
    (hKeys : (fields.map Prod.fst).Nodup)
    {declared : List (Field TypeRef)}
    (hNodup : (declared.map Field.name).Nodup)
    (hEach :
      ∀ f ∈ declared, ∀ v, fields.lookup f.name = some v →
        RoundTrips s f.type v)
    {parts : List (List UInt8)}
    {rest behind : List UInt8}
    (h :
      declared.mapM (fun f => encodeField s f fields) =
        .ok parts) :
    (∃ found,
      FindsAlike declared found (normFields s fields) ∧
        Reads s (.fields declared found)
          (parts.flatten ++ rest) behind) ↔
      behind = rest ∧
        FieldsUndisturbed s fields declared
          (parts.flatten ++ rest) ∧
        (∀ f ∈ declared, ∀ v, fields.lookup f.name = some v →
          VariantsFit s v) := by
  induction declared generalizing parts with
  | nil =>
      cases h
      simp only [Reads.fields_nil_iff]
      constructor
      · intro h
        rcases h with ⟨_, _, _, rfl⟩
        exact ⟨rfl, fieldsUndisturbed_nil, by simp⟩
      · intro h
        rcases h with ⟨rfl, _⟩
        exact ⟨[], by simp [FindsAlike], rfl, rfl⟩
  | cons f declared ih =>
      rcases List.nodup_cons.mp hNodup with ⟨hName, hNodup⟩
      rcases List.forall_mem_cons.mp hEach with
        ⟨hFirst, hOthers⟩
      simp only [List.mapM_cons, Outcome.bind_eq_ok_iff,
        Outcome.pure_eq_ok_iff] at h
      rcases h with ⟨part, hPart, parts, hParts, rfl⟩
      have ih := ih hNodup hOthers hParts
      rw [List.flatten_cons, List.append_assoc,
        fieldsUndisturbed_cons_iff hPart,
        List.forall_mem_cons]
      rcases encodeField_eq_ok_iff.mp hPart with
        ⟨v, inner, hLookup, hSet, hInner, rfl⟩ |
        ⟨hUnset, hOptional, rfl⟩
      · have hFits :
            (∀ w, fields.lookup f.name = some w →
              VariantsFit s w) ↔ VariantsFit s v := by
          simp [hLookup]
        rw [List.cons_append,
          fieldUndisturbed_set_iff hKeys hLookup hSet, hFits,
          ← List.cons_append,
          reads_set_norm_iff hKeys hName hLookup hSet
            (hFirst v hLookup) hInner, ih]
        tauto
      · have hFits :
            ∀ v, fields.lookup f.name = some v →
              VariantsFit s v :=
          fun v hLookup =>
            variantsFit_of_isZero (hUnset v hLookup)
        rw [List.nil_append,
          fieldUndisturbed_unset_iff hKeys hUnset,
          reads_unset_norm_iff hKeys hName hUnset hOptional,
          ih]
        tauto

/-
  Found fields make up a normal form when the declared ones
  are found in it alike, as it has no other ones.
-/
theorem ofList_eq_normFields_iff
    {m : Message TypeRef}
    {fields found : List (String × Value)}
    (hAscending : Keyed.Ascending fields)
    (hDeclared : ∀ e ∈ fields, e.1 ∈ m.fields.map Field.name)
    (hNodup : (m.fields.map Field.name).Nodup)
    (hFound :
      (found.map Prod.fst).Sublist
        (m.fields.map Field.name)) :
    Keyed.ofList found = normFields s fields ↔
      FindsAlike m.fields found (normFields s fields) := by
  have hLookup :=
    Keyed.lookup_ofList_of_nodup (hFound.nodup hNodup)
  constructor
  · intro h f _
    rw [← hLookup, h]
  · intro h
    apply Keyed.eq_of_lookup (Keyed.ascending_ofList found)
      (ascending_normFields hAscending)
    intro name
    rw [hLookup]
    by_cases hName : name ∈ m.fields.map Field.name
    · rcases List.mem_map.mp hName with ⟨f, hf, rfl⟩
      exact h f hf
    · have hNotFound : name ∉ found.map Prod.fst :=
        fun hMem => hName (hFound.subset hMem)
      have hNotNormal :
          name ∉ (normFields s fields).map Prod.fst := by
        intro hMem
        rcases
            List.mem_map.mp
              ((names_normFields fields).subset hMem) with
          ⟨e, he, rfl⟩
        exact hName (hDeclared e he)
      rw [Keyed.lookup_eq_none_of_not_mem hNotFound,
        Keyed.lookup_eq_none_of_not_mem hNotNormal]

end Value

end TagWire

------------------------------------------------------------
-- Values
------------------------------------------------------------

namespace TagWire

namespace Value

variable {s : ResolvedSchema}

/-
  The fields of an encoded message are read to those of its
  normal form exactly when nothing is mistaken for a tag.
-/
theorem reads_body_norm_iff
    (hs : s.WellFormed)
    {declared name : String}
    {m : Message TypeRef}
    {fields : List (String × Value)}
    (hMessage : s.message? name = some m)
    (hAscending : Keyed.Ascending fields)
    (hDeclared : ∀ e ∈ fields, e.1 ∈ m.fields.map Field.name)
    (hEach :
      ∀ f ∈ m.fields, ∀ v, fields.lookup f.name = some v →
        RoundTrips s f.type v)
    {bytes rest : List UInt8}
    (h : (message name fields).encode s = .ok bytes) :
    (∃ found behind,
      Keyed.ofList found = normFields s fields ∧
        Reads s (.fields m.fields found) (bytes ++ rest)
          behind) ↔
      Undisturbed s (.named (.message declared))
          (message name fields) (bytes ++ rest) ∧
        VariantsFit s (message name fields) := by
  rcases encode_message_eq_ok_iff.mp h with
    ⟨m', parts, hSame, hParts, rfl⟩
  rw [hMessage] at hSame
  cases hSame
  have hKeys := Keyed.nodup_of_ascending hAscending
  have hNodup :=
    hs.fieldNames m (Schema.of_message?_eq_some hMessage).1
  have hFit :
      VariantsFit s (message name fields) ↔
        ∀ f ∈ m.fields, ∀ v, fields.lookup f.name = some v →
          VariantsFit s v := by
    rw [variantsFit_message_iff]
    constructor
    · intro hAll f _ v hLookup
      exact hAll _ (Keyed.mem_of_lookup hLookup)
    · intro hAll e he
      rcases List.mem_map.mp (hDeclared e he) with
        ⟨f, hf, hName⟩
      have hLookup := Keyed.lookup_of_mem hKeys he
      exact hAll f hf e.2 (hName ▸ hLookup)
  rw [undisturbed_message_iff hMessage, hFit]
  constructor
  · intro h
    rcases h with ⟨found, behind, hSame, hReads⟩
    have hAlike :=
      (ofList_eq_normFields_iff hAscending hDeclared hNodup
        hReads.names).mp hSame
    exact ((reads_fields_norm_iff hKeys hNodup hEach
      hParts).mp ⟨found, hAlike, hReads⟩).2
  · intro hAll
    rcases
        (reads_fields_norm_iff hKeys hNodup hEach
          hParts).mpr ⟨rfl, hAll⟩ with
      ⟨found, hAlike, hReads⟩
    have hSame :=
      (ofList_eq_normFields_iff hAscending hDeclared hNodup
        hReads.names).mpr hAlike
    exact ⟨found, rest, hSame, hReads⟩

/- A number is read off its bytes. -/
theorem roundTrips_number
    (kind : NumKind)
    (word : kind.Word) :
    RoundTrips s (.scalar (.num kind)) (number kind word) := by
  intro field bytes rest behind h
  rcases encodeAs_number_eq_ok_iff.mp h with ⟨_, rfl⟩
  rw [norm, Reads.number_iff]
  constructor
  · intro h
    rcases h with ⟨word', hSame, hSplit⟩
    cases hSame
    exact ⟨(List.append_cancel_left hSplit).symm,
      undisturbed_number, variantsFit_number kind word⟩
  · intro h
    rcases h with ⟨rfl, _⟩
    exact ⟨word, rfl, rfl⟩

/- A string is read off its length and its bytes. -/
theorem roundTrips_string
    (text : String) :
    RoundTrips s (.scalar .string) (string text) := by
  intro field bytes rest behind h
  rcases encodeAs_string_eq_ok_iff.mp h with ⟨_, hText⟩
  rw [norm, Reads.string_iff]
  constructor
  · intro h
    rcases h with
      ⟨text', bytes', hSame, hText', hSplit⟩
    cases hSame
    rw [hText] at hText'
    cases hText'
    exact ⟨(List.append_cancel_left hSplit).symm,
      undisturbed_string, variantsFit_string text⟩
  · intro h
    rcases h with ⟨rfl, _⟩
    exact ⟨text, bytes, rfl, hText, rfl⟩

/-
  A variant is read off its number, as long as four bytes hold
  it: a larger number is written modulo `2 ^ 32`, and read as
  that of another variant.
-/
theorem roundTrips_enum
    (hs : s.WellFormed)
    {name variant : String}
    (hType : s.Closed (.named (.enum name))) :
    RoundTrips s (.named (.enum name)) (enum name variant) := by
  intro field bytes rest behind h
  rcases encodeAs_enum_eq_ok_iff.mp h with
    ⟨_, e, index, hSame, hEnum, hIndex, rfl⟩
  cases hSame
  rcases Schema.exists_enum?_of_closed hs hType with
    ⟨e', hMem, hEnum', hName⟩
  rw [hEnum] at hEnum'
  cases hEnum'
  rw [norm, Reads.enum_iff,
    variantsFit_enum_iff hEnum hIndex]
  constructor
  · intro h
    rcases h with
      ⟨_, word, _, hFound, hVariant, hSame, hSplit⟩
    rw [hEnum] at hFound
    cases hFound
    cases hSame
    have hWord :=
      idxOf?_of_getElem? (hs.variants e hMem) hVariant
    rw [hIndex] at hWord
    cases hWord
    exact ⟨(List.append_cancel_left hSplit).symm,
      undisturbed_enum, word.isLt⟩
  · intro h
    rcases h with ⟨rfl, _, hLt⟩
    rcases List.idxOf?_eq_some_iff.mp hIndex with
      ⟨hBound, hGet, _⟩
    have hWord : (BitVec.ofNat 32 index).toNat = index :=
      Nat.mod_eq_of_lt hLt
    refine
      ⟨e, BitVec.ofNat 32 index, variant, hEnum, ?_, ?_, ?_⟩
    · rw [← hGet]
      show e.variants[(BitVec.ofNat 32 index).toNat]? = _
      rw [hWord]
      exact List.getElem?_eq_getElem hBound
    · rw [hName]
    · show _ = LittleEndian.bytes 4
        (BitVec.ofNat 32 index).toNat ++ behind
      rw [hWord]

/- A list is read off its length and its elements. -/
theorem roundTrips_list
    {element : ResolvedType}
    {elements : List Value}
    (hEach : ∀ v ∈ elements, RoundTrips s element v) :
    RoundTrips s (.list element) (list elements) := by
  intro field bytes rest behind h
  rcases encodeAs_list_eq_ok_iff.mp h with
    ⟨_, size, inner, hSame, hSize, hInner, rfl⟩
  cases hSame
  have hLength := length_of_encodeLength hSize
  rw [norm, normElements_eq, Reads.list_iff,
    List.append_assoc, undisturbed_list_iff hLength,
    variantsFit_list_iff,
    ← reads_elements_norm_iff hEach hInner]
  constructor
  · intro h
    rcases h with
      ⟨vs, size', between, hSame, hSize', hSplit,
       hReads⟩
    cases hSame
    rw [List.length_map, hSize] at hSize'
    cases hSize'
    rw [List.append_cancel_left hSplit]
    exact hReads
  · intro hReads
    refine ⟨_, size, _, rfl, ?_, rfl, hReads⟩
    rwa [List.length_map]

/-
  A map is read off its length and its entries. Since as many
  bindings are read as there are entries, no key is read twice.
-/
theorem roundTrips_map
    {key : ScalarKind}
    {type : ResolvedType}
    {entries : List (MapKey × Value)}
    (hAscending : Keyed.Ascending entries)
    (hEach : ∀ e ∈ entries, RoundTrips s type e.2) :
    RoundTrips s (.map key type) (map entries) := by
  intro field bytes rest behind h
  rcases encodeAs_map_eq_ok_iff.mp h with
    ⟨_, _, size, inner, hSame, hSize, hInner, rfl⟩
  cases hSame
  have hLength := length_of_encodeLength hSize
  have hNormal :=
    ascending_normEntries (s := s) hAscending
  rw [normEntries_eq] at hNormal
  rw [norm, normEntries_eq, Reads.map_iff,
    List.append_assoc, undisturbed_map_iff hLength,
    variantsFit_map_iff,
    ← reads_entries_norm_iff hEach hInner]
  constructor
  · intro h
    rcases h with
      ⟨bound, size', between, hSame, hSize', hSplit,
       hReads⟩
    have hBound := Value.map.inj hSame
    rcases
        List.append_inj hSplit
          (hLength.trans
            (length_of_encodeLength hSize').symm) with
      ⟨rfl, rfl⟩
    have hCount := eq_of_encodeLength hSize' hSize
    have hNodup : (bound.map Prod.fst).Nodup := by
      apply Keyed.nodup_of_length_ofList
      rw [← hBound, List.length_map, hCount]
    rwa [bound_eq_of_reads hEach hInner hCount ?_
      hReads] at hReads
    intro k v v' hv hv'
    exact norm_of_mem_bound hNormal hNodup hBound hv hv'
  · intro hReads
    refine ⟨_, size, _, ?_, ?_, rfl, hReads⟩
    · rw [Keyed.ofList_of_ascending hNormal]
    · rwa [List.length_map]

/-
  A message is read off its fields. It is framed by encoding it
  once more, and its normal form has the same encoding.
-/
theorem roundTrips_message
    (hs : s.WellFormed)
    {name : String}
    {m : Message TypeRef}
    {fields : List (String × Value)}
    (hMessage : s.message? name = some m)
    (hName : m.name = name)
    (hAscending : Keyed.Ascending fields)
    (hDeclared :
      ∀ e ∈ fields, e.1 ∈ m.fields.map Field.name)
    (hValues :
      ∀ e ∈ fields, ∀ f ∈ m.fields,
        f.name = e.1 → Conforms s f.type e.2)
    (hEach :
      ∀ f ∈ m.fields, ∀ v, fields.lookup f.name = some v →
        RoundTrips s f.type v) :
    RoundTrips s (.named (.message name))
      (message name fields) := by
  intro field bytes rest behind h
  have hNorm :=
    (encodeAs_norm
      (.message hMessage hName hAscending hDeclared
        hValues)).trans h
  rcases encodeAs_message_eq_ok_iff.mp h with
    ⟨_, _, hEncode⟩
  rw [norm] at hNorm
  rcases encodeAs_message_eq_ok_iff.mp hNorm with
    ⟨_, _, hNorm⟩
  rw [norm, Reads.message_iff, ← reads_body_norm_iff hs
    hMessage hAscending hDeclared hEach hEncode]
  constructor
  · intro h
    rcases h with
      ⟨_, found, between, bytes', taken, hFound,
       hSame, hFields, hEncode', hTaken, hSplit⟩
    rw [hMessage] at hFound
    cases hFound
    rcases Value.message.inj hSame with
      ⟨_, hFields'⟩
    rw [hNorm] at hEncode'
    cases hEncode'
    rcases List.append_inj hSplit hTaken.symm with
      ⟨rfl, rfl⟩
    exact ⟨rfl, found, between, hFields'.symm, hFields⟩
  · intro h
    rcases h with
      ⟨rfl, found, between, hSame, hFields⟩
    refine
      ⟨m, found, between, bytes, bytes, hMessage, ?_,
        hFields, hNorm, rfl, rfl⟩
    rw [hSame, hName]

/- Every value of a type of the schema round-trips. -/
theorem roundTrips_of_conforms
    (hs : s.WellFormed)
    {type : ResolvedType}
    {v : Value}
    (hType : s.Closed type)
    (hConforms : Conforms s type v) :
    RoundTrips s type v := by
  induction v using Value.induct generalizing type with
  | number kind word =>
      cases hConforms
      exact roundTrips_number kind word
  | string text =>
      cases hConforms
      exact roundTrips_string text
  | enum name variant =>
      cases hConforms
      exact roundTrips_enum hs hType
  | list elements ih =>
      cases hConforms with
      | list hElements =>
          refine roundTrips_list ?_
          intro v hv
          exact ih v hv hType (hElements v hv)
  | map entries ih =>
      cases hConforms with
      | map hAscending _ hValues =>
          refine roundTrips_map hAscending ?_
          intro e he
          exact ih e he hType.2 (hValues e he)
  | message name fields ih =>
      cases hConforms with
      | @message _ m _ hMessage hName hAscending hDeclared
          hValues =>
          have hMem := (Schema.of_message?_eq_some hMessage).1
          refine roundTrips_message hs hMessage hName hAscending
            hDeclared hValues ?_
          intro f hf v hLookup
          have hv := Keyed.mem_of_lookup hLookup
          exact ih _ hv (hs.closed m hMem f hf)
            (hValues _ hv f hf rfl)

end Value

end TagWire

------------------------------------------------------------
-- Decoding an Encoding
------------------------------------------------------------

namespace TagWire

namespace Value

/-
  For every schema that is accepted, each of its messages, and
  a value of that type that is encoded: the encoding, with any
  bytes behind it, is decoded to the normal form of the value
  exactly when no byte is mistaken for a tag, in any message
  that occurs in the value. The numbers of variants have to
  fit their four bytes, which they do in every enum of up to
  so many variants.
-/
theorem decode_encode_append_iff
    {text : String}
    {s : ResolvedSchema}
    (hCompile : compile text = .ok s)
    {m : Message TypeRef}
    (hMessage : m ∈ s.messages)
    {v : Value}
    (hConforms : Conforms s (.named (.message m.name)) v)
    {bytes : List UInt8}
    (hEncode : v.encode s = .ok bytes)
    (rest : List UInt8) :
    (decode s m.name (bytes ++ rest) = .ok (v.norm s) ↔
      Undisturbed s (.named (.message m.name)) v
          (bytes ++ rest) ∧
        VariantsFit s v) ∧
    ((∀ e ∈ s.enums, e.variants.length ≤ 2 ^ 32) →
      VariantsFit s v) := by
  have hs := Schema.wellFormed_of_compile hCompile
  have hFound := Schema.message?_of_mem hs hMessage
  refine ⟨?_, fun h => variantsFit_of_length_le h v⟩
  cases hConforms with
  | @message _ m' fields hFound' hName hAscending hDeclared
      hValues =>
      rw [hFound] at hFound'
      cases hFound'
      have hEach :
          ∀ f ∈ m.fields, ∀ v, fields.lookup f.name = some v →
            RoundTrips s f.type v := by
        intro f hf v hLookup
        exact roundTrips_of_conforms hs
          (hs.closed m hMessage f hf)
          (hValues _ (Keyed.mem_of_lookup hLookup) f hf rfl)
      rw [decode_eq_ok_iff, norm, ← reads_body_norm_iff hs
        hFound hAscending hDeclared hEach hEncode]
      constructor
      · intro h
        rcases h with
          ⟨_, found, behind, hSame, hFields, hReads⟩
        rw [hFound] at hSame
        cases hSame
        rcases Value.message.inj hFields with ⟨_, hFields⟩
        exact ⟨found, behind, hFields.symm, hReads⟩
      · intro h
        rcases h with ⟨found, behind, hSame, hReads⟩
        refine ⟨m, found, behind, hFound, ?_, hReads⟩
        rw [hSame]

open Sample in
/-
  An envelope whose header has an empty list. The header is
  encoded without it, and the tag of the checksum stands where
  the tag of the list would.
-/
theorem decode_encode_append_iff_envelope :
    ∃ v,
      Conforms casesSchema (.named (.message "Envelope")) v ∧
      v.encode casesSchema =
        .ok [1, 1, 1, 0, 0, 0, 107, 2, 3, 0, 0, 0] ∧
      (decode casesSchema "Envelope"
            ([1, 1, 1, 0, 0, 0, 107, 2, 3, 0, 0, 0] ++ [255]) =
          .ok (v.norm casesSchema) ↔
        Undisturbed casesSchema
            (.named (.message "Envelope")) v
            ([1, 1, 1, 0, 0, 0, 107, 2, 3, 0, 0, 0] ++
              [255]) ∧
          VariantsFit casesSchema v) ∧
      ((∀ e ∈ casesSchema.enums,
          e.variants.length ≤ 2 ^ 32) →
        VariantsFit casesSchema v) := by
  have hMessage :
      Envelope.declaration ∈ casesSchema.messages := by
    decide
  have hHeader :
      Conforms casesSchema (.named (.message "Header"))
        (message "Header"
          [("flags", list []), ("kind", string "k")]) := by
    refine .message (m := Header.declaration) rfl rfl
      (by decide) (by decide) ?_
    have hFlags :
        Conforms casesSchema
          (.list (.scalar (.num (.int .uint8)))) (list []) :=
      .list (by simp)
    have hKind :
        Conforms casesSchema (.scalar .string) (string "k") :=
      .string
    simpa [Header.declaration] using ⟨hFlags, hKind⟩
  have hEnvelope :
      Conforms casesSchema (.named (.message "Envelope"))
        (message "Envelope"
          [
            ("checksum", number (.int .uint32) 3),
            ("header",
              message "Header"
                [("flags", list []), ("kind", string "k")])
          ]) := by
    refine .message (m := Envelope.declaration) rfl rfl
      (by decide) (by decide) ?_
    have hChecksum :
        Conforms casesSchema (.scalar (.num (.int .uint32)))
          (number (.int .uint32) 3) :=
      .number
    simpa [Envelope.declaration] using ⟨hChecksum, hHeader⟩
  have hEncode :
      encode casesSchema
          (message "Envelope"
            [
              ("checksum", number (.int .uint32) 3),
              ("header",
                message "Header"
                  [("flags", list []), ("kind", string "k")])
            ]) =
        .ok [1, 1, 1, 0, 0, 0, 107, 2, 3, 0, 0, 0] := by
    rfl
  exact
    ⟨_, hEnvelope, hEncode,
      decode_encode_append_iff compile_casesText hMessage
        hEnvelope hEncode [255]⟩

end Value

end TagWire
