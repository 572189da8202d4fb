import TagWire.Proofs.Value.Written

/-
  What is decoded from a beginning of an encoding. When the
  bytes end between two fields, the fields in front are read
  and the others are missed, and when they end in the middle
  of one, decoding runs out of bytes. So no field is read with
  a value that it does not have.

  Main declarations:
    * `Value.EndsBetween`
    * `Value.EndsInside`
    * `Value.endsBetween_or_endsInside`
    * `Value.decodeBody_runsOut`
    * `Value.decode_of_missing`
    * `Value.decode_of_complete`
    * `Value.decode_truncated`
-/

------------------------------------------------------------
-- Where the Bytes End
------------------------------------------------------------

namespace TagWire

namespace Value

/- Bytes that end between two written fields. -/
structure EndsBetween
    (chunks run : List Chunk)
    (p : List UInt8) : Prop where
  isPrefix : run <+: chunks
  strict : run ≠ chunks
  bytes_eq : p = run.flatMap Chunk.written

/- Bytes that end behind the tag of a field, in its value. -/
structure EndsInside
    (chunks run : List Chunk)
    (cut : Chunk)
    (inner p : List UInt8) : Prop where
  isPrefix : run ++ [cut] <+: chunks
  inner_isPrefix : inner <+: cut.bytes
  strict : inner ≠ cut.bytes
  bytes_eq :
    p = run.flatMap Chunk.written ++ cut.field.seq :: inner

/- A written field in front moves the end behind it. -/
theorem EndsBetween.cons
    {chunks run : List Chunk}
    {p : List UInt8}
    (h : EndsBetween chunks run p)
    (c : Chunk) :
    EndsBetween (c :: chunks) (c :: run) (c.written ++ p) where
  isPrefix := (List.prefix_cons_inj c).mpr h.isPrefix
  strict := fun hSame => h.strict (List.cons_injective hSame)
  bytes_eq := by rw [List.flatMap_cons, ← h.bytes_eq]

theorem EndsInside.cons
    {chunks run : List Chunk}
    {cut : Chunk}
    {inner p : List UInt8}
    (h : EndsInside chunks run cut inner p)
    (c : Chunk) :
    EndsInside (c :: chunks) (c :: run) cut inner
      (c.written ++ p) where
  isPrefix := (List.prefix_cons_inj c).mpr h.isPrefix
  inner_isPrefix := h.inner_isPrefix
  strict := h.strict
  bytes_eq := by
    rw [List.flatMap_cons, List.append_assoc, ← h.bytes_eq]

/-
  Where the bytes of some fields are cut, it is in front of a
  tag or inside of a value: a tag has one byte only.
-/
theorem endsBetween_or_endsInside
    {chunks : List Chunk}
    {p : List UInt8}
    (hPrefix : p <+: chunks.flatMap Chunk.written)
    (hStrict : p ≠ chunks.flatMap Chunk.written) :
    (∃ run, EndsBetween chunks run p) ∨
      ∃ run cut inner, EndsInside chunks run cut inner p := by
  induction chunks generalizing p with
  | nil => exact absurd (List.prefix_nil.mp hPrefix) hStrict
  | cons c chunks ih =>
      rw [List.flatMap_cons] at hPrefix hStrict
      rcases prefix_append_cases hPrefix hStrict with
        ⟨hShort, hNe⟩ | ⟨q, hShort, hNe, rfl⟩
      · rcases List.prefix_cons_iff.mp hShort with
          rfl | ⟨inner, rfl, hInner⟩
        · exact Or.inl ⟨[], List.nil_prefix, by simp, rfl⟩
        · refine Or.inr ⟨[], c, inner, ?_, hInner, ?_, rfl⟩
          · exact List.prefix_append [c] chunks
          · exact fun hSame => hNe (congrArg _ hSame)
      · rcases ih hShort hNe with
          ⟨run, hBetween⟩ | ⟨run, cut, inner, hInside⟩
        · exact Or.inl ⟨c :: run, hBetween.cons c⟩
        · exact Or.inr ⟨c :: run, cut, inner, hInside.cons c⟩

end Value

end TagWire

------------------------------------------------------------
-- Ends inside a Value
------------------------------------------------------------

namespace TagWire

namespace Value

open Reader ResolvedType

variable {s : ResolvedSchema}
variable {chunk : Chunk}

/- The bytes of written fields start with the tag of one. -/
theorem exists_head?_eq_seq
    (run others : List Chunk)
    (cut : Chunk)
    (inner : List UInt8) :
    ∃ f ∈ (run ++ cut :: others).map Chunk.field,
      (run.flatMap Chunk.written ++
        cut.field.seq :: inner).head? = some f.seq := by
  cases run with
  | nil => exact ⟨cut.field, List.mem_cons_self, rfl⟩
  | cons r run => exact ⟨r.field, List.mem_cons_self, rfl⟩

/- A field that is next and that is cut runs out of bytes. -/
theorem decodeBody_runsOut_of_cut
    (declared : List (Field TypeRef))
    (hFlat : Flat chunk.field.type)
    (hReadable : chunk.Readable s)
    {c : Cursor}
    {inner : List UInt8}
    (hPrefix : inner <+: chunk.bytes)
    (hStrict : inner ≠ chunk.bytes)
    (hRemaining : c.remaining = chunk.field.seq :: inner) :
    RunsOut CodecError.unexpectedEnd
      (decodeBody s (decode s) (chunk.field :: declared)) c := by
  have hTag : c.remaining = [chunk.field.seq] ++ inner :=
    hRemaining
  rcases Cursor.exists_passes hTag with ⟨d, hPasses, rfl⟩
  have hCut := hReadable.runsOut hFlat hPrefix hStrict
  exact hCut.bind_left.of_eq
    (by rw [decodeBody_of_set hPasses]) hPasses.data_eq

/- A field that is next and is all there is passed. -/
theorem decodeBody_runsOut_of_next
    {declared : List (Field TypeRef)}
    (hFlat : Flat chunk.field.type)
    (hReadable : chunk.Readable s)
    {c : Cursor}
    {rest : List UInt8}
    (hRemaining : c.remaining = chunk.written ++ rest)
    (hRest :
      ∀ d, d.remaining = rest →
        RunsOut CodecError.unexpectedEnd
          (decodeBody s (decode s) declared) d) :
    RunsOut CodecError.unexpectedEnd
      (decodeBody s (decode s) (chunk.field :: declared)) c := by
  have hTag :
      c.remaining =
        [chunk.field.seq] ++ (chunk.bytes ++ rest) :=
    hRemaining
  rcases Cursor.exists_passes hTag with ⟨d, hPasses, hBehind⟩
  rcases hReadable.decodeAs_eq hFlat hBehind with
    ⟨v, e, hRun, hValue⟩
  have hAhead : e.remaining = rest :=
    List.append_cancel_left
      (hValue.remaining_eq.symm.trans hBehind)
  exact
    (RunsOut.bind_right hRun hValue.data_eq
      (hRest e hAhead).bind_left).of_eq
      (by rw [decodeBody_of_set hPasses]) hPasses.data_eq

/-
  The fields in front of the cut are read and the one that is
  cut runs out of bytes. The walk over the declared fields
  comes to it: it passes over optional fields only, as all
  required ones are written, in front of the cut or behind it.
-/
theorem decodeBody_runsOut
    {declared : List (Field TypeRef)}
    {run others : List Chunk}
    {cut : Chunk}
    {inner : List UInt8}
    {c : Cursor}
    (hSeqs : (declared.map Field.seq).Nodup)
    (hFlat : ∀ f ∈ declared, Flat f.type)
    (hInOrder :
      ((run ++ cut :: others).map Chunk.field).Sublist
        declared)
    (hRequired :
      ∀ f ∈ declared, f.optional = false →
        f ∈ (run ++ cut :: others).map Chunk.field)
    (hReadable :
      ∀ chunk ∈ run ++ cut :: others, chunk.Readable s)
    (hPrefix : inner <+: cut.bytes)
    (hStrict : inner ≠ cut.bytes)
    (hRemaining :
      c.remaining =
        run.flatMap Chunk.written ++ cut.field.seq :: inner) :
    RunsOut CodecError.unexpectedEnd
      (decodeBody s (decode s) declared) c := by
  induction declared generalizing run c with
  | nil => simp at hInOrder
  | cons f declared ih =>
      rcases List.nodup_cons.mp hSeqs with ⟨hNew, hOthers⟩
      rcases List.forall_mem_cons.mp hFlat with
        ⟨hHere, hOtherFlat⟩
      rcases List.forall_mem_cons.mp hRequired with
        ⟨hFirst, hOtherRequired⟩
      rcases List.sublist_cons_iff.mp hInOrder with
        hBelow | ⟨below, hSame, hBelow⟩
      -- the field is not written, so it is passed over
      · have hApart :
            ∀ g ∈ (run ++ cut :: others).map Chunk.field,
              g.seq ≠ f.seq :=
          fun g hg hSeq =>
            hNew (hSeq ▸ List.mem_map_of_mem (hBelow.subset hg))
        have hOptional : f.optional = true :=
          Bool.eq_true_of_not_eq_false fun h =>
            hApart f (hFirst h) rfl
        have hHead : c.remaining.head? ≠ some f.seq := by
          rcases exists_head?_eq_seq run others cut inner with
            ⟨g, hg, hHead⟩
          rw [hRemaining, hHead]
          exact fun hSeq => hApart g hg (Option.some.inj hSeq)
        have hRest :=
          ih hOthers hOtherFlat hBelow hOtherRequired
            hReadable hRemaining
        exact hRest.of_eq
          (by rw [decodeBody_of_unset hHead hOptional]) rfl
      · cases run with
        | nil =>
            -- the field that is cut is next
            obtain ⟨rfl, rfl⟩ :
                cut.field = f ∧ others.map Chunk.field = below :=
              List.cons.inj hSame
            exact
              decodeBody_runsOut_of_cut declared hHere
                (hReadable cut List.mem_cons_self) hPrefix
                hStrict hRemaining
        | cons r run =>
            obtain ⟨rfl, rfl⟩ :
                r.field = f ∧
                  (run ++ cut :: others).map Chunk.field =
                    below :=
              List.cons.inj hSame
            rcases List.forall_mem_cons.mp hReadable with
              ⟨hRead, hOtherReadable⟩
            rw [List.flatMap_cons, List.append_assoc]
              at hRemaining
            have hWritten :
                ∀ g ∈ declared, g.optional = false →
                  g ∈ (run ++ cut :: others).map
                    Chunk.field := by
              intro g hg hNot
              rcases
                  List.mem_cons.mp (hOtherRequired g hg hNot)
                with rfl | hMem
              · exact absurd (List.mem_map_of_mem hg) hNew
              · exact hMem
            exact
              decodeBody_runsOut_of_next hHere hRead
                hRemaining fun d hAhead =>
                  ih hOthers hOtherFlat hBelow hWritten
                    hOtherReadable hAhead

end Value

end TagWire

------------------------------------------------------------
-- Ends between Fields
------------------------------------------------------------

namespace TagWire

namespace Value

open Schema

variable {s : ResolvedSchema}

/- A start in the order of declaration is taken as a whole. -/
theorem initialRun_of_sublist
    {declared : List (Field TypeRef)}
    {run : List Chunk}
    (h : (run.map Chunk.field).Sublist declared) :
    initialRun declared run = run :=
  (isInitialRun_initialRun declared run).unique
    ⟨List.prefix_rfl, h, fun _ hPrefix _ => hPrefix.length_le⟩

/- Readable fields hold the values that are read for them. -/
theorem exists_valid_of_readable
    {run : List Chunk}
    (h : ∀ chunk ∈ run, chunk.Readable s) :
    ∃ read : List Chunk,
      read.map Chunk.field = run.map Chunk.field ∧
        read.flatMap Chunk.written =
          run.flatMap Chunk.written ∧
        ∀ chunk ∈ read, chunk.Valid s := by
  induction run with
  | nil => exact ⟨[], rfl, rfl, by simp⟩
  | cons c run ih =>
      rcases List.forall_mem_cons.mp h with ⟨hHere, hOthers⟩
      rcases hHere with ⟨v, hReads⟩
      rcases ih hOthers with ⟨read, hFields, hBytes, hValid⟩
      refine ⟨⟨c.field, v, c.bytes⟩ :: read, ?_, ?_, ?_⟩
      · rw [List.map_cons, List.map_cons, hFields]
      · rw [List.flatMap_cons, List.flatMap_cons, hBytes]
        rfl
      · exact List.forall_mem_cons.mpr ⟨hReads, hValid⟩

/-
  When the written fields end and a required one is not among
  them, decoding misses the first such field.
-/
theorem decode_of_missing
    (hs : s.WellFormed)
    {m : Message TypeRef}
    (hMessage : m ∈ s.messages)
    (hSeqs : (m.fields.map Field.seq).Nodup)
    (hFlat : ∀ f ∈ m.fields, ResolvedType.Flat f.type)
    {run : List Chunk}
    (hInOrder : (run.map Chunk.field).Sublist m.fields)
    (hReadable : ∀ chunk ∈ run, chunk.Readable s)
    {f : Field TypeRef}
    (hMissing : firstMissing? m.fields run = some f) :
    decode s m.name (run.flatMap Chunk.written) =
      .error (.wire (.fieldNotFound f.name)) := by
  rcases exists_valid_of_readable hReadable with
    ⟨read, hFields, hBytes, hValid⟩
  rw [← hFields] at hInOrder
  have hMissing' : firstMissing? m.fields read = some f := by
    rw [← hMissing, firstMissing?, firstMissing?, hFields]
  have hBody :=
    decodeBody_of_chunks
      (c := Cursor.start (read.flatMap Chunk.written))
      hSeqs.of_map hFlat
      (fun f hf c hc hSeq =>
        List.inj_on_of_nodup_map hSeqs
          (hInOrder.subset (List.mem_map_of_mem hc)) hf hSeq)
      hValid rfl
  rw [initialRun_of_sublist hInOrder, entriesOrMissing,
    hMissing'] at hBody
  rw [← hBytes]
  exact
    decode_of_decodeBody (message?_of_mem hs hMessage) hBody

------------------------------------------------------------
-- Restricted Messages
------------------------------------------------------------

/- The members of a list that are where its start is. -/
theorem filter_mem_of_start
    {α β : Type}
    [DecidableEq β]
    {g : α → β}
    {run as : List α}
    (hPrefix : run <+: as)
    (hNodup : (as.map g).Nodup) :
    as.filter (g · ∈ run.map g) = run := by
  rcases hPrefix with ⟨rest, rfl⟩
  rw [List.map_append, List.nodup_append] at hNodup
  rcases hNodup with ⟨_, _, hApart⟩
  have hFront : run.filter (g · ∈ run.map g) = run :=
    List.filter_eq_self.mpr fun a ha =>
      decide_eq_true (List.mem_map_of_mem ha)
  have hBack : rest.filter (g · ∈ run.map g) = [] :=
    List.filter_eq_nil_iff.mpr fun a ha hMem =>
      hApart _ (of_decide_eq_true hMem) _
        (List.mem_map_of_mem ha) rfl
  rw [List.filter_append, hFront, hBack, List.append_nil]

/- A field of another name is not among those of some names. -/
theorem not_mem_filter_names
    {names : List String}
    {name : String}
    (h : name ∉ names)
    (fields : List (String × Value)) :
    name ∉ (fields.filter (·.1 ∈ names)).map Prod.fst := by
  intro hMem
  rcases List.mem_map.mp hMem with ⟨e, he, rfl⟩
  exact h (of_decide_eq_true (List.mem_filter.mp he).2)

/- With fewer fields, only those are written. -/
theorem filterMap_chunk?_filter
    (names : List String)
    (fields : List (String × Value))
    (declared : List (Field TypeRef)) :
    declared.filterMap
        (chunk? s (fields.filter (·.1 ∈ names))) =
      (declared.filterMap (chunk? s fields)).filter
        (·.field.name ∈ names) := by
  rw [List.filter_filterMap]
  refine List.filterMap_congr fun f _ => ?_
  by_cases hName : f.name ∈ names
  · have hSame :
        chunk? s (fields.filter (·.1 ∈ names)) f =
          chunk? s fields f := by
      unfold chunk?
      rw [lookup_filter_names hName]
    rw [hSame]
    cases hChunk : chunk? s fields f with
    | none => rfl
    | some c =>
        rw [← (chunk?_eq_some_iff.mp hChunk).1] at hName
        simp [Option.filter, hName]
  · have hNone :
        chunk? s (fields.filter (·.1 ∈ names)) f = none := by
      unfold chunk?
      rw [Keyed.lookup_eq_none_of_not_mem
        (not_mem_filter_names hName fields)]
    rw [hNone]
    cases hChunk : chunk? s fields f with
    | none => rfl
    | some c =>
        rw [← (chunk?_eq_some_iff.mp hChunk).1] at hName
        simp [Option.filter, hName]

/- No required field is missed if all of them are found. -/
theorem optional_of_firstMissing?_eq_none
    {declared : List (Field TypeRef)}
    {run : List Chunk}
    (h : firstMissing? declared run = none)
    {f : Field TypeRef}
    (hf : f ∈ declared)
    (hNot : f ∉ run.map Chunk.field) :
    f.optional = true := by
  have hFound := List.find?_eq_none.mp h f hf
  simp only [decide_eq_true_eq, not_and, not_not] at hFound
  exact Bool.eq_true_of_not_eq_false
    fun hRequired => hNot (hFound hRequired)

variable {m : Message TypeRef}
variable {fields : List (String × Value)}
variable {run : List Chunk}

/- A message of some fields is encoded as they are written. -/
theorem encode_restrict_of_start
    (hs : s.WellFormed)
    (hMessage : m ∈ s.messages)
    {bytes : List UInt8}
    (hEncode : (message m.name fields).encode s = .ok bytes)
    (hPrefix : run <+: m.fields.filterMap (chunk? s fields))
    (hComplete : firstMissing? m.fields run = none) :
    ((message m.name fields).restrict
        (run.map Chunk.field)).encode s =
      .ok (run.flatMap Chunk.written) := by
  have hFound := message?_of_mem hs hMessage
  rcases encode_message_eq_ok_iff.mp hEncode with
    ⟨m', parts, hFound', hParts, _⟩
  rw [hFound] at hFound'
  cases hFound'
  have hEach :
      ∀ f ∈ m.fields, ∃ part,
        encodeField s f
            (fields.filter
              (·.1 ∈ (run.map Chunk.field).map Field.name)) =
          .ok part := by
    intro f hf
    by_cases hName :
        f.name ∈ (run.map Chunk.field).map Field.name
    · rw [encodeField_congr (lookup_filter_names hName fields)]
      exact
        Outcome.exists_mapM_eq_ok_iff.mp ⟨parts, hParts⟩ f hf
    · have hOptional :=
        optional_of_firstMissing?_eq_none hComplete hf
          fun hMem => hName (List.mem_map_of_mem hMem)
      exact
        ⟨[], encodeField_of_optional hOptional
          (not_mem_filter_names hName fields)⟩
  rcases Outcome.exists_mapM_eq_ok_iff.mpr hEach with
    ⟨kept, hKept⟩
  have hNodup :
      ((m.fields.filterMap (chunk? s fields)).map
        fun c => c.field.name).Nodup := by
    have hInOrder :
        ((m.fields.filterMap (chunk? s fields)).map
          Chunk.field).Sublist m.fields :=
      sublist_filterMap_chunk? m.fields
    have hSublist := hInOrder.map Field.name
    rw [List.map_map] at hSublist
    exact hSublist.nodup (hs.fieldNames m hMessage)
  have hRun :
      m.fields.filterMap
          (chunk? s
            (fields.filter
              (·.1 ∈ (run.map Chunk.field).map Field.name))) =
        run := by
    rw [filterMap_chunk?_filter, List.map_map]
    exact filter_mem_of_start hPrefix hNodup
  refine encode_message_eq_ok_iff.mpr
    ⟨m, kept, hFound, hKept, ?_⟩
  rw [(flatMap_written_of_mapM hKept).1, hRun]

/- Some fields of a message make a message of the type. -/
theorem conforms_restrict_same
    (hConforms :
      Conforms s (.named (.message m.name))
        (message m.name fields))
    (kept : List (Field TypeRef)) :
    Conforms s (.named (.message m.name))
      ((message m.name fields).restrict kept) := by
  cases hConforms with
  | message hFound hName hAscending hDeclared hValues =>
      have hSublist :
          (fields.filter
            (·.1 ∈ kept.map Field.name)).Sublist fields :=
        List.filter_sublist
      exact .message hFound hName
        (hAscending.sublist hSublist)
        (fun e he => hDeclared e (hSublist.subset he))
        (fun e he => hValues e (hSublist.subset he))

/-
  When the written fields end and no required one is missed,
  the fields up to there are what is decoded.
-/
theorem decode_of_complete
    (hs : s.WellFormed)
    (hMessage : m ∈ s.messages)
    (hSeqs : (m.fields.map Field.seq).Nodup)
    (hFlat : ∀ f ∈ m.fields, ResolvedType.Flat f.type)
    (hConforms :
      Conforms s (.named (.message m.name))
        (message m.name fields))
    {bytes : List UInt8}
    (hEncode : (message m.name fields).encode s = .ok bytes)
    (hPrefix : run <+: m.fields.filterMap (chunk? s fields))
    (hComplete : firstMissing? m.fields run = none) :
    decode s m.name (run.flatMap Chunk.written) =
        .ok
          (((message m.name fields).norm s).restrict
            (run.map Chunk.field)) ↔
      VariantsFit s
        ((message m.name fields).restrict
          (run.map Chunk.field)) := by
  have hDecode :=
    decode_append_norm_iff hs hMessage rfl hSeqs
      (conforms_restrict_same hConforms (run.map Chunk.field))
      (fun f hf v _ => hFlat f hf)
      (encode_restrict_of_start hs hMessage hEncode hPrefix
        hComplete)
      [] (by simp)
  rw [List.append_nil] at hDecode
  rw [← norm_restrict]
  exact hDecode

end Value

end TagWire

------------------------------------------------------------
-- Beginnings of Encodings
------------------------------------------------------------

namespace TagWire

namespace Value

open Schema

variable {s : ResolvedSchema}
variable {m : Message TypeRef}

/- What is found among some fields is found among all. -/
theorem get?_of_get?_restrict
    {kept : List (Field TypeRef)}
    {v u : Value}
    {name : String}
    (h : (v.restrict kept).get? name = some u) :
    v.get? name = some u := by
  cases v with
  | message name' fields =>
      rw [restrict, get?] at h
      by_cases hName : name ∈ kept.map Field.name
      · rwa [lookup_filter_names hName] at h
      · rw [Keyed.lookup_eq_none_of_not_mem
          (not_mem_filter_names hName fields)] at h
        cases h
  | _ => exact h

/-
  When the bytes end between two fields, the first required
  one that is cut off is missed, or all in front are decoded.
-/
theorem decode_of_endsBetween
    (hs : s.WellFormed)
    (hMessage : m ∈ s.messages)
    (hSeqs : (m.fields.map Field.seq).Nodup)
    (hFlat : ∀ f ∈ m.fields, ResolvedType.Flat f.type)
    {fields : List (String × Value)}
    (hConforms :
      Conforms s (.named (.message m.name))
        (message m.name fields))
    {bytes p : List UInt8}
    {run : List Chunk}
    (hEncode : (message m.name fields).encode s = .ok bytes)
    (hEnds :
      EndsBetween (chunks s m.fields (message m.name fields))
        run p) :
    match firstMissing? m.fields run with
    | some f =>
        decode s m.name p =
          .error (.wire (.fieldNotFound f.name))
    | none =>
        decode s m.name p =
            .ok
              (((message m.name fields).norm s).restrict
                (run.map Chunk.field)) ↔
          VariantsFit s
            ((message m.name fields).restrict
              (run.map Chunk.field)) := by
  have hInOrder : (run.map Chunk.field).Sublist m.fields :=
    (hEnds.isPrefix.sublist.map Chunk.field).trans
      (sublist_filterMap_chunk? m.fields)
  have hReadable : ∀ c ∈ run, c.Readable s :=
    fun c hc =>
      readable_of_mem_filterMap hFlat
        (hEnds.isPrefix.subset hc)
  rw [hEnds.bytes_eq]
  cases hMissing : firstMissing? m.fields run with
  | some f =>
      exact decode_of_missing hs hMessage hSeqs hFlat hInOrder
        hReadable hMissing
  | none =>
      exact decode_of_complete hs hMessage hSeqs hFlat
        hConforms hEncode hEnds.isPrefix hMissing

/-
  When the bytes end inside of a value, decoding runs out of
  them there.
-/
theorem decode_of_endsInside
    (hs : s.WellFormed)
    (hMessage : m ∈ s.messages)
    (hSeqs : (m.fields.map Field.seq).Nodup)
    (hFlat : ∀ f ∈ m.fields, ResolvedType.Flat f.type)
    {fields : List (String × Value)}
    {bytes p inner : List UInt8}
    {run : List Chunk}
    {cut : Chunk}
    (hEncode : (message m.name fields).encode s = .ok bytes)
    (hInside :
      EndsInside (chunks s m.fields (message m.name fields))
        run cut inner p) :
    ∃ offset needed,
      decode s m.name p =
          .error (.wire (.unexpectedEnd offset needed)) ∧
        offset ≤ p.length ∧ p.length < offset + needed := by
  rcases hInside.isPrefix with ⟨others, hSplit⟩
  rw [List.append_assoc, List.singleton_append] at hSplit
  have hRequired :=
    (encode_eq_flatMap_written hs hMessage hEncode).2
  have hInOrder :
      ((chunks s m.fields (message m.name fields)).map
        Chunk.field).Sublist m.fields :=
    sublist_filterMap_chunk? m.fields
  have hReadable :
      ∀ c ∈ chunks s m.fields (message m.name fields),
        c.Readable s :=
    fun c hc => readable_of_mem_filterMap hFlat hc
  rw [← hSplit] at hRequired hInOrder hReadable
  rcases
      decodeBody_runsOut (c := Cursor.start p) hSeqs hFlat
        hInOrder hRequired hReadable hInside.inner_isPrefix
        hInside.strict
        ((Cursor.remaining_start p).trans hInside.bytes_eq) with
    ⟨offset, needed, hError, hBounds⟩
  exact
    ⟨offset, needed,
      decode_of_decodeBody (message?_of_mem hs hMessage)
        hError,
      hBounds⟩

/-
  A beginning of an encoding, and not all of it. The message
  is one of an accepted schema, its tags differ, and it has no
  messages inside.

  The encoding is made of the set fields, each written as its
  tag and its value. If the bytes end between two of them, the
  first required field is reported that is cut off. If there
  is none, the fields in front are decoded to the fields of
  the normal form. If the bytes end inside of a value, they
  are too few at that place. So no field is decoded to a value
  that the normal form does not have. The numbers of variants
  have to fit their four bytes, which they do in every enum of
  up to so many variants.
-/
theorem decode_truncated
    {text : String}
    (hCompile : compile text = .ok s)
    (hMessage : m ∈ s.messages)
    (hSeqs : (m.fields.map Field.seq).Nodup)
    (hFlat : ∀ f ∈ m.fields, ResolvedType.Flat f.type)
    {v : Value}
    (hConforms : Conforms s (.named (.message m.name)) v)
    {bytes p : List UInt8}
    (hEncode : v.encode s = .ok bytes)
    (hPrefix : p <+: bytes)
    (hStrict : p ≠ bytes) :
    bytes = (chunks s m.fields v).flatMap Chunk.written ∧
    ((∃ run, EndsBetween (chunks s m.fields v) run p) ∨
      ∃ run cut inner,
        EndsInside (chunks s m.fields v) run cut inner p) ∧
    (∀ run, EndsBetween (chunks s m.fields v) run p →
      match firstMissing? m.fields run with
      | some f =>
          decode s m.name p =
            .error (.wire (.fieldNotFound f.name))
      | none =>
          decode s m.name p =
              .ok ((v.norm s).restrict (run.map Chunk.field)) ↔
            VariantsFit s
              (v.restrict (run.map Chunk.field))) ∧
    (∀ run cut inner,
      EndsInside (chunks s m.fields v) run cut inner p →
        ∃ offset needed,
          decode s m.name p =
              .error (.wire (.unexpectedEnd offset needed)) ∧
            offset ≤ p.length ∧
            p.length < offset + needed) ∧
    (VariantsFit s v →
      ∀ w, decode s m.name p = .ok w →
        ∀ name u, w.get? name = some u →
          (v.norm s).get? name = some u) ∧
    ((∀ e ∈ s.enums, e.variants.length ≤ 2 ^ 32) →
      VariantsFit s v) := by
  have hs := wellFormed_of_compile hCompile
  obtain ⟨fields, rfl⟩ :
      ∃ fields, v = message m.name fields := by
    cases hConforms with
    | message => exact ⟨_, rfl⟩
  rcases encode_eq_flatMap_written hs hMessage hEncode with
    ⟨hBytes, _⟩
  have hCases :=
    endsBetween_or_endsInside (hBytes ▸ hPrefix)
      (hBytes ▸ hStrict)
  refine ⟨hBytes, hCases,
    fun run =>
      decode_of_endsBetween hs hMessage hSeqs hFlat hConforms
        hEncode,
    fun run cut inner =>
      decode_of_endsInside hs hMessage hSeqs hFlat hEncode,
    ?_, fun h => variantsFit_of_length_le h _⟩
  intro hFit w hDecode name u hGet
  rcases hCases with
    ⟨run, hEnds⟩ | ⟨run, cut, inner, hEnds⟩
  · have hOutcome :=
      decode_of_endsBetween hs hMessage hSeqs hFlat hConforms
        hEncode hEnds
    split at hOutcome
    · rw [hOutcome] at hDecode
      cases hDecode
    · have hKept :
          VariantsFit s
            ((message m.name fields).restrict
              (run.map Chunk.field)) :=
        variantsFit_message_iff.mpr fun e he =>
          variantsFit_message_iff.mp hFit e
            (List.mem_of_mem_filter he)
      rw [hOutcome.mpr hKept] at hDecode
      cases hDecode
      exact get?_of_get?_restrict hGet
  · rcases
        decode_of_endsInside hs hMessage hSeqs hFlat hEncode
          hEnds with
      ⟨offset, needed, hError, _⟩
    rw [hError] at hDecode
    cases hDecode

open Sample

/- A grid without rows, with a single key, as it is written. -/
def weightsAndTotals : List Chunk :=
  [
    { lateRows[0] with bytes := [1, 0, 0, 0, 1, 7, 0, 0, 0] },
    lateRows[1]
  ]

/-
  A grid cut between a key and what it is bound to, and behind
  the field of its weights.
-/
theorem decode_truncated_grid :
    (∃ offset needed,
      decode casesSchema "Grid" [2, 1, 0, 0, 0, 1] =
          .error (.wire (.unexpectedEnd offset needed)) ∧
        offset ≤ 6 ∧ 6 < offset + needed) ∧
    decode casesSchema "Grid" [2, 1, 0, 0, 0, 1, 7, 0, 0, 0] =
      .ok
        (message "Grid"
          [
            ("weights",
              map [(.int .uint8 1, number (.float .float32) 7)])
          ]) := by
  have hTotals :
      Conforms casesSchema
        (.list (.scalar (.num (.int .int32))))
        (list [number (.int .int32) 9]) :=
    .list (by simpa using .number)
  have hWeights :
      Conforms casesSchema
        (.map (.num (.int .uint8))
          (.scalar (.num (.float .float32))))
        (map [(.int .uint8 1, number (.float .float32) 7)]) :=
    .map (by decide) (by simp [MapKey.kind])
      (by simpa using .number)
  have hGrid :
      Conforms casesSchema (.named (.message "Grid"))
        (message "Grid"
          [
            ("totals", list [number (.int .int32) 9]),
            ("weights",
              map [(.int .uint8 1, number (.float .float32) 7)])
          ]) := by
    refine .message (m := Grid.declaration) rfl rfl
      (by decide) (by decide) ?_
    simpa [Grid.declaration] using ⟨hTotals, hWeights⟩
  have hFlat :
      ∀ f ∈ Grid.declaration.fields,
        ResolvedType.Flat f.type := by
    simp [Grid.declaration, ResolvedType.flat_list_iff,
      ResolvedType.flat_map_iff, ResolvedType.flat_scalar]
  have hEncode :
      (message "Grid"
        [
          ("totals", list [number (.int .int32) 9]),
          ("weights",
            map [(.int .uint8 1, number (.float .float32) 7)])
        ]).encode casesSchema =
          .ok (weightsAndTotals.flatMap Chunk.written) := by
    rfl
  have hTruncated :=
    fun p =>
      decode_truncated (p := p) compile_casesText
        (m := Grid.declaration) (by simp [casesSchema])
        (by decide) hFlat hGrid hEncode
  rcases
      hTruncated [2, 1, 0, 0, 0, 1] (by decide) (by decide) with
    ⟨_, _, _, hInside, _⟩
  rcases
      hTruncated [2, 1, 0, 0, 0, 1, 7, 0, 0, 0] (by decide)
        (by decide) with
    ⟨_, _, hBetween, _⟩
  constructor
  · exact hInside [] weightsAndTotals[0] [1, 0, 0, 0, 1]
      ⟨⟨weightsAndTotals.drop 1, rfl⟩, by decide, by decide,
        rfl⟩
  · apply (hBetween (weightsAndTotals.take 1) ?_).mpr
    · exact variantsFit_of_length_le
        (fun e he => absurd he List.not_mem_nil) _
    · refine ⟨⟨weightsAndTotals.drop 1, rfl⟩, ?_, rfl⟩
      exact fun hSame =>
        absurd (congrArg List.length hSame) (by decide)

end Value

end TagWire
