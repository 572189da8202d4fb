import TagWire.Proofs.Value.Compatibility

/-
  Fields on the wire in any order. The walk over the declared
  fields takes what is written as long as it comes in the
  order of declaration, and stops at the first field that
  comes too late. A field behind that one is lost, and it is
  missed if it is required.

  Main declarations:
    * `Value.Reads.append`
    * `Value.IsInitialRun`
    * `Value.initialRun`
    * `Value.decodeBody_of_chunks`
    * `Value.decode_chunks`
-/

------------------------------------------------------------
-- Bytes Behind a Value
------------------------------------------------------------

namespace TagWire

namespace Value

open ResolvedType

/- The types of a portion use no message. -/
def Portion.Flat : Portion → Prop
| value type _ => ResolvedType.Flat type
| elements type _ => ResolvedType.Flat type
| entries _ type _ => ResolvedType.Flat type
| fields _ _ => False

variable {s : ResolvedSchema}

/-
  What stands behind a value does not matter. It does for a
  message, which looks for its fields in all bytes ahead.
-/
theorem Reads.append
    {p : Portion}
    {ahead rest : List UInt8}
    (hFlat : p.Flat)
    (h : Reads s p ahead rest)
    (more : List UInt8) :
    Reads s p (ahead ++ more) (rest ++ more) := by
  induction h with
  | number =>
      rw [List.append_assoc]
      exact .number
  | string hText =>
      rw [List.append_assoc]
      exact .string hText
  | enum hEnum hVariant =>
      rw [List.append_assoc]
      exact .enum hEnum hVariant
  | list hSize _ ih =>
      rw [List.append_assoc]
      exact .list hSize (ih (flat_list_iff.mp hFlat))
  | map hSize _ ih =>
      rw [List.append_assoc]
      exact .map hSize (ih (flat_map_iff.mp hFlat))
  | message => exact absurd hFlat not_flat_message
  | elementsNil => exact .elementsNil
  | elementsCons _ _ ihHead ihTail =>
      exact .elementsCons (ihHead hFlat) (ihTail hFlat)
  | entriesNil => exact .entriesNil
  | entriesCons hKey _ _ ihHead ihTail =>
      rw [List.append_assoc]
      exact .entriesCons hKey (ihHead hFlat) (ihTail hFlat)
  | fieldsNil => exact hFlat.elim
  | fieldsSet => exact hFlat.elim
  | fieldsUnset => exact hFlat.elim

end Value

end TagWire

------------------------------------------------------------
-- Fields on the Wire
------------------------------------------------------------

namespace TagWire

namespace Value

/- A field with a value and the bytes that stand for it. -/
structure Chunk where
  field : Field TypeRef
  value : Value
  bytes : List UInt8

namespace Chunk

/- The bytes of a value stand behind the tag of its field. -/
def written
    (c : Chunk) :
    List UInt8 :=
  c.field.seq :: c.bytes

/- What a message keeps of a field. -/
def entry
    (c : Chunk) :
    String × Value :=
  (c.field.name, c.value)

/-
  The bytes are an encoding of the value. There may be others:
  a map may bind a key twice, and bind its keys in any order.
-/
def Valid
    (s : ResolvedSchema)
    (c : Chunk) : Prop :=
  Reads s (.value c.field.type c.value) c.bytes []

end Chunk

/-
  The longest start of the written fields that comes in the
  order of declaration.
-/
structure IsInitialRun
    (declared : List (Field TypeRef))
    (chunks run : List Chunk) : Prop where
  isPrefix : run <+: chunks
  inOrder : (run.map Chunk.field).Sublist declared
  longest :
    ∀ run', run' <+: chunks →
      (run'.map Chunk.field).Sublist declared →
        run'.length ≤ run.length

/- There is one such start only. -/
theorem IsInitialRun.unique
    {declared : List (Field TypeRef)}
    {chunks run run' : List Chunk}
    (h : IsInitialRun declared chunks run)
    (h' : IsInitialRun declared chunks run') :
    run = run' := by
  have hLe := h'.longest run h.isPrefix h.inOrder
  have hGe := h.longest run' h'.isPrefix h'.inOrder
  exact
    (List.prefix_of_prefix_length_le h.isPrefix h'.isPrefix
      hLe).eq_of_length (hLe.antisymm hGe)

/- The written fields that the walk over the declared takes. -/
def initialRun :
    List (Field TypeRef) → List Chunk → List Chunk
| [], _ => []
| _ :: _, [] => []
| f :: declared, c :: chunks =>
    if c.field = f then
      c :: initialRun declared chunks
    else
      initialRun declared (c :: chunks)

@[simp]
theorem initialRun_nil
    (declared : List (Field TypeRef)) :
    initialRun declared [] = [] := by
  cases declared <;> rfl

/- The walk takes the longest start that is in order. -/
theorem isInitialRun_initialRun
    (declared : List (Field TypeRef))
    (chunks : List Chunk) :
    IsInitialRun declared chunks
      (initialRun declared chunks) := by
  induction declared generalizing chunks with
  | nil =>
      refine ⟨List.nil_prefix, List.Sublist.refl _, ?_⟩
      intro run' _ hInOrder
      rw [List.sublist_nil, List.map_eq_nil_iff] at hInOrder
      exact (congrArg List.length hInOrder).le
  | cons f declared ih =>
      cases chunks with
      | nil =>
          refine ⟨List.nil_prefix, List.nil_sublist _, ?_⟩
          exact fun run' hPrefix _ => hPrefix.length_le
      | cons c chunks =>
          rw [initialRun]
          split
          · next hField =>
              have hRun := ih chunks
              refine ⟨?_, ?_, ?_⟩
              · exact (List.prefix_cons_inj c).mpr hRun.isPrefix
              · rw [List.map_cons, hField]
                exact hRun.inOrder.cons_cons f
              · intro run' hPrefix hInOrder
                rcases List.prefix_cons_iff.mp hPrefix with
                  rfl | ⟨others, rfl, hOthers⟩
                · exact Nat.zero_le _
                · rw [List.map_cons, hField,
                    List.cons_sublist_cons] at hInOrder
                  exact
                    Nat.succ_le_succ
                      (hRun.longest others hOthers hInOrder)
          · next hField =>
              have hRun := ih (c :: chunks)
              refine ⟨hRun.isPrefix, hRun.inOrder.cons f, ?_⟩
              intro run' hPrefix hInOrder
              apply hRun.longest run' hPrefix
              rcases List.prefix_cons_iff.mp hPrefix with
                rfl | ⟨others, rfl, _⟩
              · exact List.nil_sublist _
              · rw [List.map_cons, List.sublist_cons_iff]
                  at hInOrder
                rcases hInOrder with
                  hBelow | ⟨_, hSame, _⟩
                · exact hBelow
                · cases hSame
                  exact absurd rfl hField

/- Nothing comes in the order in which it is not declared. -/
theorem not_mem_initialRun
    {f : Field TypeRef}
    {declared : List (Field TypeRef)}
    (hNew : f ∉ declared)
    (chunks : List Chunk) :
    f ∉ (initialRun declared chunks).map Chunk.field :=
  fun h =>
    hNew
      ((isInitialRun_initialRun declared chunks).inOrder.subset
        h)

------------------------------------------------------------
-- Missing Fields
------------------------------------------------------------

/- The first required field that is not among some. -/
def firstMissing?
    (declared : List (Field TypeRef))
    (run : List Chunk) :
    Option (Field TypeRef) :=
  declared.find? fun f =>
    f.optional = false ∧ f ∉ run.map Chunk.field

/- What becomes of a message of which some fields are found. -/
def entriesOrMissing
    (declared : List (Field TypeRef))
    (run : List Chunk) :
    Except CodecError (List (String × Value)) :=
  match firstMissing? declared run with
  | some f => .error (.wire (.fieldNotFound f.name))
  | none => .ok (run.map Chunk.entry)

/- A field that is found is not missed. -/
theorem entriesOrMissing_cons_found
    {c : Chunk}
    {declared : List (Field TypeRef)}
    {run : List Chunk}
    (hNew : c.field ∉ declared) :
    entriesOrMissing (c.field :: declared) (c :: run) =
      (entriesOrMissing declared run).map (c.entry :: ·) := by
  have hFirst :
      firstMissing? (c.field :: declared) (c :: run) =
        firstMissing? declared run := by
    unfold firstMissing?
    rw [List.find?_cons_of_neg (by simp),
      ← List.head?_filter, ← List.head?_filter]
    refine congrArg List.head? ?_
    refine List.filter_congr fun f hf => ?_
    have hNe : f ≠ c.field := by
      intro h
      exact hNew (h ▸ hf)
    simp [hNe]
  unfold entriesOrMissing
  rw [hFirst]
  cases firstMissing? declared run <;> rfl

/- An optional field is never missed. -/
theorem entriesOrMissing_cons_optional
    {f : Field TypeRef}
    {declared : List (Field TypeRef)}
    {run : List Chunk}
    (hOptional : f.optional = true) :
    entriesOrMissing (f :: declared) run =
      entriesOrMissing declared run := by
  unfold entriesOrMissing firstMissing?
  rw [List.find?_cons_of_neg (by simp [hOptional])]

/- A required field that is not found is missed at once. -/
theorem entriesOrMissing_cons_missing
    {f : Field TypeRef}
    {declared : List (Field TypeRef)}
    {run : List Chunk}
    (hRequired : f.optional = false)
    (hNew : f ∉ run.map Chunk.field) :
    entriesOrMissing (f :: declared) run =
      .error (.wire (.fieldNotFound f.name)) := by
  unfold entriesOrMissing firstMissing?
  rw [List.find?_cons_of_pos (by simpa [hRequired] using hNew)]

end Value

end TagWire

------------------------------------------------------------
-- The Walk over the Declared Fields
------------------------------------------------------------

namespace TagWire

namespace Value

open Reader

variable {s : ResolvedSchema}

/- A written field that is next on the wire is taken. -/
theorem decodeBody_cons_of_next
    {chunk : Chunk}
    (declared : List (Field TypeRef))
    (hFlat : ResolvedType.Flat chunk.field.type)
    (hValid : chunk.Valid s)
    {c : Cursor}
    {rest : List UInt8}
    (hRemaining : c.remaining = chunk.written ++ rest) :
    ∃ d, d.remaining = rest ∧
      (decodeBody s (decode s) (chunk.field :: declared) c).1 =
        (decodeBody s (decode s) declared d).1.map
          (chunk.entry :: ·) := by
  have hTag :
      c.remaining =
        [chunk.field.seq] ++ (chunk.bytes ++ rest) :=
    hRemaining
  rcases Cursor.exists_passes hTag with
    ⟨b, hPasses, hBehind⟩
  have hReads :
      Reads s (.value chunk.field.type chunk.value)
        b.remaining rest := by
    rw [hBehind]
    exact
      Reads.append
        (p := .value chunk.field.type chunk.value)
        hFlat hValid rest
  rcases hReads.exists_cursor with ⟨d, hData, rfl, _⟩
  have hValue :
      decodeAs s (decode s) chunk.field.type b =
        (.ok chunk.value, d) :=
    decodeAs_eq_ok_iff.mpr ⟨hData, hReads⟩
  refine ⟨d, rfl, ?_⟩
  rw [decodeBody_of_set hPasses, bind_of_ok hValue,
    fst_bind_pure]
  rfl

/-
  A field that is not next on the wire is left out or missed.
-/
theorem decodeBody_cons_of_not_next
    {f : Field TypeRef}
    {declared : List (Field TypeRef)}
    {run : List Chunk}
    {c : Cursor}
    (hHead : c.remaining.head? ≠ some f.seq)
    (hNew : f ∉ run.map Chunk.field)
    (hRest :
      (decodeBody s (decode s) declared c).1 =
        entriesOrMissing declared run) :
    (decodeBody s (decode s) (f :: declared) c).1 =
      entriesOrMissing (f :: declared) run := by
  cases hOptional : f.optional with
  | true =>
      rw [decodeBody_of_unset hHead hOptional, hRest,
        entriesOrMissing_cons_optional hOptional]
  | false =>
      rw [decodeBody_of_missing hHead hOptional,
        entriesOrMissing_cons_missing hOptional hNew]

/-
  The body of a message is read from written fields in any
  order, if no two declared fields share a tag. The walk is
  an induction over the declared fields: each is taken from
  the head of the written ones, or the head stays.
-/
theorem decodeBody_of_chunks
    {declared : List (Field TypeRef)}
    {chunks : List Chunk}
    {c : Cursor}
    (hNodup : declared.Nodup)
    (hFlat : ∀ f ∈ declared, ResolvedType.Flat f.type)
    (hApart :
      ∀ f ∈ declared, ∀ chunk ∈ chunks,
        chunk.field.seq = f.seq → chunk.field = f)
    (hValid : ∀ chunk ∈ chunks, chunk.Valid s)
    (hRemaining : c.remaining = chunks.flatMap Chunk.written) :
    (decodeBody s (decode s) declared c).1 =
      entriesOrMissing declared (initialRun declared chunks) := by
  induction declared generalizing chunks c with
  | nil =>
      obtain ⟨d, hBody⟩ :
          ∃ d, decodeBody s (decode s) [] c = (.ok [], d) :=
        decodeBody_nil_eq c
      rw [hBody]
      rfl
  | cons f declared ih =>
      rcases List.nodup_cons.mp hNodup with
        ⟨hNew, hOtherNodup⟩
      rcases List.forall_mem_cons.mp hFlat with
        ⟨hHere, hOtherFlat⟩
      rcases List.forall_mem_cons.mp hApart with
        ⟨hTag, hOtherApart⟩
      cases chunks with
      | nil =>
          have hRest :=
            ih hOtherNodup hOtherFlat hOtherApart hValid
              hRemaining
          rw [initialRun_nil] at hRest ⊢
          apply decodeBody_cons_of_not_next _ (by simp) hRest
          rw [hRemaining]
          simp
      | cons chunk chunks =>
          rw [initialRun]
          split
          · next hField =>
              rcases hField with rfl
              rcases List.forall_mem_cons.mp hValid with
                ⟨hFirst, hOtherValid⟩
              rcases
                  decodeBody_cons_of_next declared hHere hFirst
                    hRemaining with
                ⟨d, hRest, hBody⟩
              have hOtherChunks :
                  ∀ f ∈ declared, ∀ chunk' ∈ chunks,
                    chunk'.field.seq = f.seq →
                      chunk'.field = f :=
                fun f hf chunk' hMem =>
                  hOtherApart f hf chunk'
                    (List.mem_cons_of_mem _ hMem)
              rw [hBody, entriesOrMissing_cons_found hNew,
                ih hOtherNodup hOtherFlat hOtherChunks
                  hOtherValid hRest]
          · next hField =>
              apply
                decodeBody_cons_of_not_next _
                  (not_mem_initialRun hNew _)
                  (ih hOtherNodup hOtherFlat hOtherApart hValid
                    hRemaining)
              rw [hRemaining]
              intro hHead
              have hSeq : chunk.field.seq = f.seq :=
                Option.some.inj hHead
              exact
                hField (hTag chunk List.mem_cons_self hSeq)

end Value

end TagWire

------------------------------------------------------------
-- Messages from Written Fields
------------------------------------------------------------

namespace TagWire

namespace Value

open Schema

/-
  A message of an accepted schema, whose tags differ and which
  has no messages inside, is decoded from some of its fields
  written in any order. The fields of the longest start that
  is in the order of declaration are kept with their values,
  and no others. If a required field is not in this start,
  the first such one is reported. A field that is written a
  second time comes too late, as does all that is behind it.
-/
theorem decode_chunks
    {text : String}
    {s : ResolvedSchema}
    (hCompile : compile text = .ok s)
    {m : Message TypeRef}
    (hMessage : m ∈ s.messages)
    (hSeqs : (m.fields.map Field.seq).Nodup)
    (hFlat : ∀ f ∈ m.fields, ResolvedType.Flat f.type)
    {chunks : List Chunk}
    (hDeclared : ∀ c ∈ chunks, c.field ∈ m.fields)
    (hValid : ∀ c ∈ chunks, c.Valid s) :
    ∃ run,
      IsInitialRun m.fields chunks run ∧
      (∀ run', IsInitialRun m.fields chunks run' →
        run' = run) ∧
      decode s m.name (chunks.flatMap Chunk.written) =
        (match firstMissing? m.fields run with
        | some f => .error (.wire (.fieldNotFound f.name))
        | none =>
            .ok
              (message m.name
                (Keyed.ofList (run.map Chunk.entry)))) ∧
      ∀ name v,
        (message m.name
            (Keyed.ofList (run.map Chunk.entry))).get? name =
          some v ↔
        ∃ c ∈ run, c.field.name = name ∧ c.value = v := by
  have hs := wellFormed_of_compile hCompile
  have hRun := isInitialRun_initialRun m.fields chunks
  refine ⟨initialRun m.fields chunks, hRun,
    fun run' h => h.unique hRun, ?_, ?_⟩
  · have hBody :
        (decodeBody s (decode s) m.fields
            (Cursor.start (chunks.flatMap Chunk.written))).1 =
          entriesOrMissing m.fields
            (initialRun m.fields chunks) :=
      decodeBody_of_chunks hSeqs.of_map hFlat
        (fun f hf c hc hSeq =>
          List.inj_on_of_nodup_map hSeqs (hDeclared c hc) hf
            hSeq)
        hValid rfl
    rw [decode_eq,
      decodeWith_of_message? (message?_of_mem hs hMessage)]
    unfold Reader.eval
    rw [hBody]
    unfold entriesOrMissing
    cases firstMissing? m.fields (initialRun m.fields chunks) <;>
      rfl
  · intro name v
    have hNames :
        (((initialRun m.fields chunks).map
          Chunk.entry).map Prod.fst).Nodup := by
      have hSublist := hRun.inOrder.map Field.name
      rw [List.map_map] at hSublist ⊢
      exact hSublist.nodup (hs.fieldNames m hMessage)
    rw [get?, Keyed.lookup_ofList_of_nodup hNames]
    constructor
    · intro h
      have hMem := Keyed.mem_of_lookup h
      rcases List.mem_map.mp hMem with ⟨c, hc, hEntry⟩
      cases hEntry
      exact ⟨c, hc, rfl, rfl⟩
    · intro h
      rcases h with ⟨c, hc, rfl, rfl⟩
      exact Keyed.lookup_of_mem hNames (List.mem_map_of_mem hc)

open Sample

/- A name behind the age of a person comes too late. -/
example :
    decode casesSchema "Person"
        [2, 7, 0, 0, 0, 1, 1, 0, 0, 0, 65] =
      .error (.wire (.fieldNotFound "name")) := by
  rfl

/- A grid with a key bound twice, and with rows at the end. -/
def lateRows : List Chunk :=
  [
    {
      field := Grid.declaration.fields[1]
      value :=
        map [(.int .uint8 1, number (.float .float32) 7)]
      bytes := [2, 0, 0, 0, 1, 5, 0, 0, 0, 1, 7, 0, 0, 0]
    },
    {
      field := Grid.declaration.fields[2]
      value := list [number (.int .int32) 9]
      bytes := [1, 0, 0, 0, 9, 0, 0, 0]
    },
    {
      field := Grid.declaration.fields[0]
      value := list [list []]
      bytes := [1, 0, 0, 0, 0, 0, 0, 0]
    }
  ]

/- The key keeps what it is bound to last. The rows are lost. -/
theorem decode_chunks_lateRows :
    decode casesSchema "Grid"
        (lateRows.flatMap Chunk.written) =
      .ok
        (message "Grid"
          [
            ("totals", list [number (.int .int32) 9]),
            ("weights",
              map [(.int .uint8 1, number (.float .float32) 7)])
          ]) := by
  have hValid : ∀ c ∈ lateRows, c.Valid casesSchema := by
    have hRead :
        ∀ c ∈ lateRows,
          decodeAs casesSchema (decode casesSchema)
              c.field.type (Cursor.start c.bytes) =
            (.ok c.value,
              ⟨c.bytes, c.bytes.length, Nat.le_refl _⟩) := by
      simp only [lateRows, List.forall_mem_cons]
      exact ⟨rfl, rfl, rfl, by simp⟩
    intro c hc
    have hReads := (decodeAs_eq_ok_iff.mp (hRead c hc)).2
    simpa [Chunk.Valid, Cursor.remaining, Cursor.start]
      using hReads
  have hFlat :
      ∀ f ∈ Grid.declaration.fields,
        ResolvedType.Flat f.type := by
    simp [Grid.declaration, ResolvedType.flat_list_iff,
      ResolvedType.flat_map_iff, ResolvedType.flat_scalar]
  have hDeclared :
      ∀ c ∈ lateRows, c.field ∈ Grid.declaration.fields := by
    simp [lateRows, Grid.declaration]
  rcases
      decode_chunks compile_casesText
        (m := Grid.declaration) (by simp [casesSchema])
        (by decide) hFlat hDeclared hValid with
    ⟨run, _, hUnique, hDecode, _⟩
  cases hUnique _ (isInitialRun_initialRun _ _)
  exact hDecode

end Value

end TagWire
