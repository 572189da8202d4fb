import TagWire.Proofs.Schema.Resolution
import TagWire.Proofs.Text.Utf8Order
import TagWire.Proofs.Value.Framing
import TagWire.Proofs.Value.InitialRun
import TagWire.Proofs.Value.Typing

/-
  Maps on the wire may have their entries in any order, and a
  key in several of them. What is decoded does not tell: each
  key is bound to the value of its last entry, and encoding
  writes the keys once and in ascending order.

  Main declarations:
    * `MapKey.Below`
    * `Value.Spells`
    * `Value.spells_iff_variantsFit`
    * `Value.SpellsEntry`
    * `Value.spells_map`
    * `Value.decode_map_canonical`
-/

------------------------------------------------------------
-- The Order of Keys
------------------------------------------------------------

namespace TagWire

open Text

namespace MapKey

/-
  Integers are below greater ones, as the numbers that they
  are, and strings below those with greater bytes.
-/
def Below : MapKey → MapKey → Prop
| int k word, int k' word' => k.value word < k'.value word'
| string text, string text' =>
    Utf8.encode text < Utf8.encode text'
| _, _ => False

/- Keys of one kind are kept in this order. -/
theorem below_of_compare
    {a b : MapKey}
    (hKind : a.kind = b.kind)
    (h : compare a b = .lt) :
    a.Below b := by
  have hOrder : order a b = .lt := h
  cases a with
  | int k word =>
      cases b with
      | int k' word' =>
          cases hKind
          simp only [order, rank, magnitude, text,
            Std.ReflCmp.compare_self, Ordering.eq_then,
            Ordering.then_eq] at hOrder
          exact compare_lt_iff_lt.mp hOrder
      | string text => cases hKind
  | string text =>
      cases b with
      | int k word => cases hKind
      | string text' =>
          simp only [order, rank, magnitude,
            Std.ReflCmp.compare_self, Ordering.eq_then]
            at hOrder
          exact Utf8.encode_lt_of_compare hOrder

end MapKey

end TagWire

------------------------------------------------------------
-- Bytes That Spell a Value
------------------------------------------------------------

namespace TagWire

namespace Value

open ResolvedType

variable {s : ResolvedSchema}

/-
  Some bytes are read as a value, wherever they stand and
  whatever is behind them.
-/
def Spells
    (s : ResolvedSchema)
    (type : ResolvedType)
    (bytes : List UInt8)
    (v : Value) : Prop :=
  ∀ (c : Cursor) (rest : List UInt8),
    c.remaining = bytes ++ rest →
      ∃ d,
        decodeAs s (decode s) type c = (.ok v, d) ∧
          d.data = c.data ∧ d.remaining = rest

/- Bytes spell what can be read from all of them. -/
theorem spells_iff_reads
    {type : ResolvedType}
    {bytes : List UInt8}
    {v : Value}
    (hFlat : Flat type) :
    Spells s type bytes v ↔ Reads s (.value type v) bytes [] := by
  constructor
  · intro h
    have hStart :
        (Cursor.start bytes).remaining = bytes ++ [] := by
      rw [Cursor.remaining_start, List.append_nil]
    rcases h (Cursor.start bytes) [] hStart with
      ⟨d, hRun, _, hRest⟩
    have hReads := (decodeAs_eq_ok_iff.mp hRun).2
    rwa [Cursor.remaining_start, hRest] at hReads
  · intro h c rest hRemaining
    have hReads : Reads s (.value type v) c.remaining rest := by
      rw [hRemaining]
      exact Reads.append (p := .value type v) hFlat h rest
    rcases hReads.exists_cursor with ⟨d, hData, rfl, _⟩
    exact
      ⟨d, decodeAs_eq_ok_iff.mpr ⟨hData, hReads⟩, hData, rfl⟩

/- Without messages a value has no fields to be left out. -/
theorem norm_of_flat
    {type : ResolvedType}
    {v : Value}
    (hFlat : Flat type)
    (h : Conforms s type v) :
    v.norm s = v := by
  induction v using Value.induct generalizing type with
  | number kind word => rw [norm]
  | string text => rw [norm]
  | enum name variant => rw [norm]
  | list elements ih =>
      cases h with
      | list hElements =>
          rw [norm, normElements_eq]
          refine congrArg list
            (Eq.trans (List.map_congr_left ?_)
              (List.map_id elements))
          exact fun v hv =>
            ih v hv (flat_list_iff.mp hFlat) (hElements v hv)
  | map entries ih =>
      cases h with
      | map _ _ hValues =>
          rw [norm, normEntries_eq]
          refine congrArg map
            (Eq.trans (List.map_congr_left ?_)
              (List.map_id entries))
          exact fun e he =>
            Prod.ext rfl
              (ih e he (flat_map_iff.mp hFlat) (hValues e he))
  | message name fields =>
      cases h
      exact absurd hFlat not_flat_message

/-
  The encoding of a value spells it, if the numbers of its
  variants fit their four bytes.
-/
theorem spells_iff_variantsFit
    (hs : s.WellFormed)
    {field : String}
    {type : ResolvedType}
    {v : Value}
    {bytes : List UInt8}
    (hType : s.Closed type)
    (hFlat : Flat type)
    (hConforms : Conforms s type v)
    (hEncode : encodeAs s field type v = .ok bytes) :
    Spells s type bytes v ↔ VariantsFit s v := by
  have hReads :=
    roundTrips_of_conforms hs hType hConforms field bytes [] []
      hEncode
  rw [List.append_nil, norm_of_flat hFlat hConforms] at hReads
  rw [spells_iff_reads hFlat, hReads]
  constructor
  · exact fun h => h.2.2
  · exact fun h =>
      ⟨rfl, undisturbed_of_flat hFlat hConforms, h⟩

end Value

end TagWire

------------------------------------------------------------
-- Entries in Any Order
------------------------------------------------------------

namespace TagWire

namespace Value

open ResolvedType

variable {s : ResolvedSchema}
variable {key : ScalarKind}
variable {type : ResolvedType}

/- The bytes of a key and bytes that spell its value. -/
def SpellsEntry
    (s : ResolvedSchema)
    (key : ScalarKind)
    (type : ResolvedType)
    (bytes : List UInt8)
    (e : MapKey × Value) : Prop :=
  ∃ front back,
    encodeKey key e.1 = .ok front ∧
      Spells s type back e.2 ∧ bytes = front ++ back

/- Spelled entries are read one behind the other. -/
theorem reads_entries_of_spells
    {parts : List (List UInt8)}
    {entries : List (MapKey × Value)}
    (hFlat : Flat type)
    (h : List.Forall₂ (SpellsEntry s key type) parts entries) :
    Reads s (.entries key type entries) parts.flatten [] := by
  induction h with
  | nil => exact .entriesNil
  | @cons part e parts entries hHead _ ih =>
      rcases hHead with ⟨front, back, hKey, hValue, rfl⟩
      have hBack :
          Reads s (.value type e.2) (back ++ parts.flatten)
            parts.flatten :=
        Reads.append (p := .value type e.2) hFlat
          ((spells_iff_reads hFlat).mp hValue) parts.flatten
      rw [List.flatten_cons, List.append_assoc]
      exact .entriesCons hKey hBack ih

/- Spelled entries behind their number spell a map. -/
theorem spells_map
    {parts : List (List UInt8)}
    {entries : List (MapKey × Value)}
    {size : List UInt8}
    (hFlat : Flat type)
    (hEntries :
      List.Forall₂ (SpellsEntry s key type) parts entries)
    (hSize : encodeLength entries.length = .ok size) :
    Spells s (.map key type) (size ++ parts.flatten)
      (map (Keyed.ofList entries)) :=
  (spells_iff_reads (flat_map_iff.mpr hFlat)).mpr
    (.map hSize (reads_entries_of_spells hFlat hEntries))

/- What is spelled is of the type. -/
theorem conforms_of_spells
    (hs : s.WellFormed)
    {bytes : List UInt8}
    {v : Value}
    (hType : s.Closed type)
    (hFlat : Flat type)
    (h : Spells s type bytes v) :
    Conforms s type v :=
  hasType_of_reads hs ((spells_iff_reads hFlat).mp h) hType

------------------------------------------------------------
-- Canonical Maps
------------------------------------------------------------

/- In every map of a value the keys are in ascending order. -/
theorem pairwise_below_of_part
    {v : Value}
    {inner : List (MapKey × Value)}
    (hConforms : Conforms s type v)
    (hPart : Part (map inner) v) :
    inner.Pairwise (fun a b => a.1.Below b.1) := by
  rcases exists_conforms_of_part hPart hConforms with
    ⟨type', _, hMap⟩
  cases hMap with
  | map hAscending hKeys _ =>
      refine List.Pairwise.imp_of_mem ?_ hAscending
      intro a b ha hb hLt
      exact MapKey.below_of_compare
        ((hKeys a ha).trans (hKeys b hb).symm) hLt

/- Entries are encoded one behind the other. -/
theorem mapM_encodeEntry_of_encodeEntries
    {field : String}
    {entries : List (MapKey × Value)}
    {inner : List UInt8}
    (h : encodeEntries s field key type entries = .ok inner) :
    ∃ parts,
      entries.mapM (encodeEntry s field key type) =
          .ok parts ∧
        inner = parts.flatten := by
  induction entries generalizing inner with
  | nil =>
      rw [encodeEntries] at h
      cases h
      exact ⟨[], rfl, rfl⟩
  | cons e rest ih =>
      rcases encodeEntries_cons_eq_ok_iff.mp h with
        ⟨front, head, tail, hKey, hHead, hTail, rfl⟩
      rcases ih hTail with ⟨parts, hParts, rfl⟩
      have hEntry :
          encodeEntry s field key type e =
            .ok (front ++ head) :=
        encodeEntry_eq_ok_iff.mpr
          ⟨front, head, hKey, hHead, rfl⟩
      refine ⟨(front ++ head) :: parts, ?_, ?_⟩
      · rw [List.mapM_cons, hEntry, hParts]
        rfl
      · rw [List.flatten_cons, List.append_assoc]

/- A map that is spelled is encoded, entry by entry. -/
theorem encodeAs_map_of_spells
    {bytes : List UInt8}
    {entries : List (MapKey × Value)}
    (hFlat : Flat type)
    (h : Spells s (.map key type) bytes (map entries))
    (field : String) :
    ∃ size parts,
      encodeLength entries.length = .ok size ∧
        entries.mapM (encodeEntry s field key type) =
          .ok parts ∧
        encodeAs s field (.map key type) (map entries) =
          .ok (size ++ parts.flatten) := by
  have hReads :=
    (spells_iff_reads (flat_map_iff.mpr hFlat)).mp h
  rcases framed_of_reads hReads field with
    ⟨bytes', hEncode, _⟩
  rcases encodeAs_map_eq_ok_iff.mp hEncode with
    ⟨key', type', size, inner, hSame, hSize, hInner, rfl⟩
  cases hSame
  rcases mapM_encodeEntry_of_encodeEntries hInner with
    ⟨parts, hParts, rfl⟩
  exact ⟨size, parts, hSize, hParts, hEncode⟩

end Value

end TagWire

------------------------------------------------------------
-- Decoded Maps
------------------------------------------------------------

namespace TagWire

namespace Value

open ResolvedType Schema

variable {s : ResolvedSchema}

/-
  A map type stands in a field of an accepted schema, and has
  no messages inside. Entries of the type are written behind
  their number, each its key and bytes that spell its value.

  They are decoded to the map in which each key has the value
  of its last entry. In this map, and in the maps inside it,
  the keys ascend strictly. Encoding it writes its entries in
  this order. Different keys may be written in any order: what
  is decoded is the same map, with the same encoding. And the
  encodings of values of the type are bytes that spell them,
  as long as the numbers of variants fit their four bytes,
  which they do in every enum of up to so many variants.
-/
theorem decode_map_canonical
    {text : String}
    (hCompile : compile text = .ok s)
    {m : Message TypeRef}
    (hMessage : m ∈ s.messages)
    {f : Field TypeRef}
    (hField : f ∈ m.fields)
    {key : ScalarKind}
    {type : ResolvedType}
    (hPart : TypeExpr.Part (.map key type) f.type)
    (hFlat : Flat type)
    {parts : List (List UInt8)}
    {entries : List (MapKey × Value)}
    {size : List UInt8}
    (hEntries :
      List.Forall₂ (SpellsEntry s key type) parts entries)
    (hSize : encodeLength entries.length = .ok size) :
    Spells s (.map key type) (size ++ parts.flatten)
      (map (Keyed.ofList entries)) ∧
    (∀ k v,
      (k, v) ∈ Keyed.ofList entries ↔
        ∃ front back,
          entries = front ++ (k, v) :: back ∧
            k ∉ back.map Prod.fst) ∧
    (∀ inner,
      Part (map inner) (map (Keyed.ofList entries)) →
        inner.Pairwise (fun a b => a.1.Below b.1)) ∧
    (∀ field,
      ∃ size' parts',
        encodeLength (Keyed.ofList entries).length =
            .ok size' ∧
          (Keyed.ofList entries).mapM
              (encodeEntry s field key type) = .ok parts' ∧
          encodeAs s field (.map key type)
              (map (Keyed.ofList entries)) =
            .ok (size' ++ parts'.flatten)) ∧
    ((entries.map Prod.fst).Nodup →
      ∀ entries' parts',
        entries'.Perm entries →
        List.Forall₂ (SpellsEntry s key type)
            parts' entries' →
          Spells s (.map key type) (size ++ parts'.flatten)
            (map (Keyed.ofList entries))) ∧
    (∀ field v bytes,
      Conforms s type v →
        encodeAs s field type v = .ok bytes →
          (Spells s type bytes v ↔ VariantsFit s v)) ∧
    ((∀ e ∈ s.enums, e.variants.length ≤ 2 ^ 32) →
      ∀ v, VariantsFit s v) := by
  have hs := wellFormed_of_compile hCompile
  have hClosed : s.Closed (.map key type) :=
    (hs.closed m hMessage f hField).part hPart
  have hSpells := spells_map hFlat hEntries hSize
  have hConforms :=
    conforms_of_spells hs hClosed (flat_map_iff.mpr hFlat)
      hSpells
  refine ⟨hSpells, fun k v => Keyed.mem_ofList_iff,
    fun inner => pairwise_below_of_part hConforms,
    encodeAs_map_of_spells hFlat hSpells, ?_, ?_,
    variantsFit_of_length_le⟩
  · intro hNodup entries' parts' hPerm hEntries'
    rw [← Keyed.ofList_eq_of_perm hNodup hPerm]
    refine spells_map hFlat hEntries' ?_
    rw [hPerm.length_eq]
    exact hSize
  · intro field v bytes hValue hEncode
    exact spells_iff_variantsFit hs hClosed.2 hFlat hValue
      hEncode

open Sample in
/- A key that is bound twice, and a smaller one in between. -/
theorem decode_map_canonical_weights :
    Spells casesSchema
        (.map (.num (.int .uint8))
          (.scalar (.num (.float .float32))))
        [
          3, 0, 0, 0, 2, 7, 0, 0, 0, 1, 5, 0, 0, 0,
          2, 9, 0, 0, 0
        ]
        (map
          [
            (.int .uint8 1, number (.float .float32) 5),
            (.int .uint8 2, number (.float .float32) 9)
          ]) := by
  have hFlat :
      Flat (.scalar (.num (.float .float32))) :=
    flat_scalar
  have hWord :
      ∀ word : NumKind.Word (.float .float32),
        Spells casesSchema (.scalar (.num (.float .float32)))
          (LittleEndian.encode word)
          (number (.float .float32) word) := by
    intro word
    refine (spells_iff_reads hFlat).mpr ?_
    exact Reads.number_iff.mpr
      ⟨word, rfl, (List.append_nil _).symm⟩
  have hEntry :
      ∀ (k : NumKind.Word (.int .uint8))
        (word : NumKind.Word (.float .float32)),
        SpellsEntry casesSchema (.num (.int .uint8))
          (.scalar (.num (.float .float32)))
          (LittleEndian.encode k ++ LittleEndian.encode word)
          (.int .uint8 k, number (.float .float32) word) :=
    fun k word => ⟨_, _, rfl, hWord word, rfl⟩
  exact
    (decode_map_canonical compile_casesText
      (m := Grid.declaration) (by simp [casesSchema])
      (f := Grid.declaration.fields[1])
      (by simp [Grid.declaration]) .refl hFlat
      (.cons (hEntry 2 7)
        (.cons (hEntry 1 5) (.cons (hEntry 2 9) .nil)))
      rfl).1

end Value

end TagWire
