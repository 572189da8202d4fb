import TagWire.Proofs.Value.Reading
import TagWire.Sample.Schemas

/-
  How deep decoding goes. A message may hold messages of its
  own sort, so a schema sets no bound. The bytes do: a message
  inside another is decoded from behind a tag of the outer
  one, so from fewer bytes than it. Decoding ends without any
  limit on its depth, and what is decoded has at most one
  level of messages more than there are bytes.

  Main declarations:
    * `Value.Starts`
    * `Value.consults_bind_iff`
    * `Value.decodeWith_eq_of_starts`
    * `Value.length_lt_of_starts`
    * `Value.depth_le_of_reads`
    * `Value.nesting_bounded`
-/

------------------------------------------------------------
-- Decodings Inside
------------------------------------------------------------

namespace TagWire

namespace Value

/- A decoding to be done: of which message, and from what. -/
structure Job where
  name : String
  data : List UInt8
deriving DecidableEq

/- A decoder that fails at one job. -/
def failingAt
    (nested : MessageDecoder)
    (job : Job)
    (e : CodecError) :
    MessageDecoder :=
  fun name data =>
    if Job.mk name data = job then
      .error e
    else
      nested name data

theorem failingAt_self
    (nested : MessageDecoder)
    (job : Job)
    (e : CodecError) :
    failingAt nested job e job.name job.data = .error e :=
  if_pos rfl

theorem failingAt_of_ne
    {nested : MessageDecoder}
    {job : Job}
    {e : CodecError}
    (other : Job)
    (h : other ≠ job) :
    failingAt nested job e other.name other.data =
      nested other.name other.data :=
  if_neg h

/- What is read with the help of a decoder of messages. -/
abbrev NestedReader (α : Type) : Type :=
  MessageDecoder → Reader CodecError α

/-
  A reader has a job done by the decoder that it is given:
  whichever error the job is made to fail with, it is the
  error of the reader.
-/
def Consults
    {α : Type}
    (r : NestedReader α)
    (nested : MessageDecoder)
    (c : Cursor)
    (job : Job) : Prop :=
  ∀ e, (r (failingAt nested job e) c).1 = .error e

/-
  A reader does the same with all decoders that agree on the
  jobs that it has done.
-/
def Determined
    {α : Type}
    (r : NestedReader α) : Prop :=
  ∀ (nested nested' : MessageDecoder) (c : Cursor),
    (∀ job, Consults r nested c job →
      nested' job.name job.data =
        nested job.name job.data) →
    r nested' c = r nested c

variable {α β : Type}
variable {s : ResolvedSchema}
variable {nested : MessageDecoder}
variable {c : Cursor}
variable {job : Job}

/- No outcome is every error at once. -/
theorem not_forall_eq_error
    (outcome : Except CodecError α) :
    ¬ ∀ e, outcome = .error e := by
  intro h
  have hFirst := h (.unknownMessage "")
  rw [h (.encode (.floatKey .string))] at hFirst
  cases hFirst

theorem determined_const
    (r : Reader CodecError α) :
    Determined (fun _ => r) :=
  fun _ _ _ _ => rfl

/- A failure elsewhere does not show. -/
theorem Determined.failingAt_eq
    {r : NestedReader α}
    (hr : Determined r)
    (h : ¬ Consults r nested c job)
    (e : CodecError) :
    r (failingAt nested job e) c = r nested c :=
  hr nested _ c fun _ hOther =>
    failingAt_of_ne _ fun hSame => h (hSame ▸ hOther)

/-
  Two readers in a row have the jobs of the first one done,
  and those of the second if it is reached.
-/
theorem consults_bind_iff
    {r : NestedReader α}
    {f : α → NestedReader β}
    (hr : Determined r) :
    Consults (fun nested => r nested >>= fun a => f a nested)
        nested c job ↔
      Consults r nested c job ∨
        ∃ a d, r nested c = (.ok a, d) ∧
          Consults (f a) nested d job := by
  by_cases hFirst : Consults r nested c job
  · refine iff_of_true (fun e => ?_) (Or.inl hFirst)
    have hError := hFirst e
    simp only [bind]
    rcases hRun : r (failingAt nested job e) c with ⟨o, d⟩
    rw [hRun] at hError
    simp only at hError
    rw [hError]
  · have hSame := hr.failingAt_eq hFirst
    have hErrors : Nonempty CodecError :=
      ⟨.unknownMessage ""⟩
    rcases hRun : r nested c with ⟨e | a, d⟩
    · simp [Consults, bind, hSame, hRun]
    · simp [Consults, bind, hSame, hRun]

theorem Determined.bind
    {r : NestedReader α}
    {f : α → NestedReader β}
    (hr : Determined r)
    (hf : ∀ a, Determined (f a)) :
    Determined (fun nested => r nested >>= fun a => f a nested) := by
  intro nested nested' c hAgree
  have hFirst : r nested' c = r nested c :=
    hr nested nested' c fun job hJob =>
      hAgree job ((consults_bind_iff hr).mpr (Or.inl hJob))
  simp only [Bind.bind, hFirst]
  rcases hRun : r nested c with ⟨e | a, d⟩
  · rfl
  · exact hf a nested nested' d fun job hJob =>
      hAgree job
        ((consults_bind_iff hr).mpr
          (Or.inr ⟨a, d, hRun, hJob⟩))

theorem Determined.times
    {r : NestedReader α}
    (hr : Determined r)
    (rounds : Nat) :
    Determined (fun nested => (r nested).times rounds) := by
  induction rounds with
  | zero => exact determined_const _
  | succ rounds ih =>
      simp only [Reader.times_succ]
      exact hr.bind fun a => ih.bind fun rest =>
        determined_const _

/- The job of a message inside is given all bytes ahead. -/
theorem consults_decodeNested_iff
    {name : String} :
    Consults (fun nested => decodeNested s nested name)
        nested c job ↔
      job = ⟨name, c.remaining⟩ := by
  constructor
  · intro h
    by_contra hOther
    apply not_forall_eq_error (decodeNested s nested name c).1
    intro e
    rw [← h e]
    simp only [decodeNested, Bind.bind, Reader.lookahead,
      Reader.ofExcept]
    rw [failingAt_of_ne ⟨name, c.remaining⟩ (Ne.symm hOther)]
  · rintro rfl e
    simp only [decodeNested, Bind.bind, Reader.lookahead,
      Reader.ofExcept]
    rw [failingAt_self nested ⟨name, c.remaining⟩ e]

theorem determined_decodeNested
    (name : String) :
    Determined (fun nested => decodeNested s nested name) := by
  intro nested nested' c hAgree
  have hSame := hAgree _ (consults_decodeNested_iff.mpr rfl)
  simp only [decodeNested, Bind.bind, Reader.lookahead,
    Reader.ofExcept]
  rw [hSame]

theorem determined_decodeAs
    (type : ResolvedType) :
    Determined (fun nested => decodeAs s nested type) := by
  induction type with
  | scalar kind => exact determined_const _
  | named reference =>
      cases reference with
      | enum name => exact determined_const _
      | message name => exact determined_decodeNested name
  | list element ih =>
      exact (determined_const _).bind fun size =>
        (ih.times size).bind fun elements =>
          determined_const _
  | map key value ih =>
      have hEntry :
          Determined
            (fun nested => decodeEntry s nested key value) :=
        (determined_const (decodeKey key)).bind fun k =>
          ih.bind fun v => determined_const _
      exact (determined_const _).bind fun size =>
        (hEntry.times size).bind fun entries =>
          determined_const _

theorem determined_decodeFields
    (declared : List (Field TypeRef))
    (tag : Option UInt8) :
    Determined
      (fun nested => decodeFields s nested declared tag) := by
  induction declared generalizing tag with
  | nil => exact determined_const _
  | cons f rest ih =>
      simp only [decodeFields]
      split
      · exact (determined_decodeAs f.type).bind fun v =>
          (determined_const Reader.tag).bind fun next =>
            (ih next).bind fun others => determined_const _
      · split
        · exact ih tag
        · exact determined_const _

theorem determined_decodeBody
    (declared : List (Field TypeRef)) :
    Determined
      (fun nested => decodeBody s nested declared) :=
  (determined_const Reader.tag).bind fun tag =>
    determined_decodeFields declared tag

------------------------------------------------------------
-- Started Decodings
------------------------------------------------------------

/-
  Decoding a message starts another decoding inside of it: it
  has it done, so whichever error that one is made to fail
  with, it is the error of the outer one.
-/
def Starts
    (s : ResolvedSchema)
    (outer inner : Job) : Prop :=
  ∀ e,
    decodeWith s (failingAt (decode s) inner e)
        outer.name outer.data =
      .error e

/- No other decoding is needed than those that are started. -/
theorem decodeWith_eq_of_starts
    (outer : Job)
    {nested : MessageDecoder}
    (h :
      ∀ inner, Starts s outer inner →
        nested inner.name inner.data =
          decode s inner.name inner.data) :
    decodeWith s nested outer.name outer.data =
      decode s outer.name outer.data := by
  rw [decode_eq]
  cases hMessage : s.message? outer.name with
  | none =>
      unfold decodeWith
      rw [hMessage]
  | some m =>
      have hBody :
          decodeBody s nested m.fields
              (Cursor.start outer.data) =
            decodeBody s (decode s) m.fields
              (Cursor.start outer.data) := by
        apply determined_decodeBody m.fields
        intro inner hInner
        apply h
        intro e
        rw [decodeWith_of_message? hMessage, Reader.eval,
          hInner e]
        rfl
      rw [decodeWith_of_message? hMessage,
        decodeWith_of_message? hMessage, Reader.eval, hBody]
      rfl

/-
  A decoding that is started has fewer bytes than the one that
  starts it. With as many, its failure would not show.
-/
theorem length_lt_of_starts
    {outer inner : Job}
    (h : Starts s outer inner) :
    inner.data.length < outer.data.length := by
  by_contra hNot
  have hSame :
      ∀ e,
        decodeWith s (decode s) outer.name outer.data =
          .error e := by
    intro e
    rw [← h e]
    apply decodeWith_congr (n := outer.data.length) _ _
      (Nat.le_refl _)
    intro name data hShort
    refine (failingAt_of_ne ⟨name, data⟩ ?_).symm
    rintro rfl
    exact hNot hShort
  exact not_forall_eq_error _ hSame

/- So decodings inside decodings come to an end. -/
theorem wellFounded_starts
    (s : ResolvedSchema) :
    WellFounded fun inner outer => Starts s outer inner :=
  Subrelation.wf length_lt_of_starts
    (measure fun job : Job => job.data.length).wf

/- A decoding that is so many levels below another one. -/
inductive StartsBelow
    (s : ResolvedSchema)
    (outer : Job) :
    Nat → Job → Prop
| here : StartsBelow s outer 0 outer
| next
    {levels : Nat}
    {middle inner : Job}
    (h : StartsBelow s outer levels middle)
    (hStarts : Starts s middle inner) :
    StartsBelow s outer (levels + 1) inner

/- Every level costs a byte. -/
theorem StartsBelow.levels_add_length_le
    {outer inner : Job}
    {levels : Nat}
    (h : StartsBelow s outer levels inner) :
    levels + inner.data.length ≤ outer.data.length := by
  induction h with
  | here => exact Nat.le_of_eq (Nat.zero_add _)
  | next _ hStarts ih =>
      have hShorter := length_lt_of_starts hStarts
      omega

end Value

end TagWire

------------------------------------------------------------
-- Levels of Messages
------------------------------------------------------------

namespace TagWire

namespace Value

mutual

/- The levels of messages in a value. -/
def depth : Value → Nat
| number _ _ => 0
| string _ => 0
| enum _ _ => 0
| list elements => elementDepth elements
| map entries => entryDepth entries
| message _ fields => fieldDepth fields + 1

/- The levels of messages in some elements. -/
def elementDepth : List Value → Nat
| [] => 0
| v :: rest => max v.depth (elementDepth rest)

/- The levels of messages in some entries. -/
def entryDepth : List (MapKey × Value) → Nat
| [] => 0
| (_, v) :: rest => max v.depth (entryDepth rest)

/- The levels of messages in some fields. -/
def fieldDepth : List (String × Value) → Nat
| [] => 0
| (_, v) :: rest => max v.depth (fieldDepth rest)

end

theorem elementDepth_le_iff
    {vs : List Value}
    {n : Nat} :
    elementDepth vs ≤ n ↔ ∀ v ∈ vs, v.depth ≤ n := by
  induction vs with
  | nil => simp [elementDepth]
  | cons v rest ih =>
      rw [elementDepth, Nat.max_le, ih, List.forall_mem_cons]

theorem entryDepth_eq
    (entries : List (MapKey × Value)) :
    entryDepth entries =
      elementDepth (entries.map Prod.snd) := by
  induction entries with
  | nil => rfl
  | cons e rest ih =>
      rw [entryDepth, ih, List.map_cons, elementDepth]

theorem fieldDepth_eq
    (fields : List (String × Value)) :
    fieldDepth fields =
      elementDepth (fields.map Prod.snd) := by
  induction fields with
  | nil => rfl
  | cons e rest ih =>
      rw [fieldDepth, ih, List.map_cons, elementDepth]

/- What stays bound is no deeper than all that was. -/
theorem elementDepth_ofList_le
    {κ : Type}
    [Ord κ] [Std.TransOrd κ] [Std.LawfulEqOrd κ]
    (bound : List (κ × Value)) :
    elementDepth ((Keyed.ofList bound).map Prod.snd) ≤
      elementDepth (bound.map Prod.snd) := by
  rw [elementDepth_le_iff, List.forall_mem_map]
  intro e he
  exact elementDepth_le_iff.mp (Nat.le_refl _) _
    (List.mem_map_of_mem (Keyed.mem_of_mem_ofList he))

/- The levels in a portion. Fields make up a message. -/
def Portion.depth : Portion → Nat
| .value _ v => v.depth
| .elements _ vs => elementDepth vs
| .entries _ _ bound => entryDepth bound
| .fields _ found => fieldDepth found + 1

variable {s : ResolvedSchema}

/-
  What is read has at most one level more than there are bytes
  ahead. The value of a field has no more levels than that: it
  is behind a tag.
-/
theorem depth_le_of_reads
    {p : Portion}
    {ahead rest : List UInt8}
    (h : Reads s p ahead rest) :
    p.depth ≤ ahead.length + 1 := by
  induction h with
  | number => simp [Portion.depth, depth]
  | string _ => simp [Portion.depth, depth]
  | enum _ _ => simp [Portion.depth, depth]
  | list _ _ ih =>
      simp only [Portion.depth, depth, List.length_append] at ih ⊢
      omega
  | @map key type bound _ _ _ _ _ ih =>
      have hLe := elementDepth_ofList_le bound
      simp only [Portion.depth, depth, entryDepth_eq,
        List.length_append] at ih ⊢
      omega
  | @message _ _ found _ _ _ _ _ _ _ _ ih =>
      have hLe := elementDepth_ofList_le found
      simp only [Portion.depth, depth, fieldDepth_eq] at ih ⊢
      omega
  | elementsNil => simp [Portion.depth, elementDepth]
  | elementsCons hHead _ ihHead ihTail =>
      have hLength := hHead.suffix.length_le
      simp only [Portion.depth, elementDepth] at ihHead ihTail ⊢
      omega
  | entriesNil => simp [Portion.depth, entryDepth]
  | entriesCons _ hHead _ ihHead ihTail =>
      have hLength := hHead.suffix.length_le
      simp only [Portion.depth, entryDepth, List.length_append]
        at ihHead ihTail ⊢
      omega
  | fieldsNil => simp [Portion.depth, fieldDepth]
  | fieldsSet hValue _ ihValue ihOthers =>
      have hLength := hValue.suffix.length_le
      simp only [Portion.depth, fieldDepth, List.length_cons]
        at ihValue ihOthers ⊢
      omega
  | fieldsUnset _ _ _ ih => exact ih

/- A decoded message has at most one level more than bytes. -/
theorem depth_le_of_decode
    {name : String}
    {data : List UInt8}
    {v : Value}
    (h : decode s name data = .ok v) :
    v.depth ≤ data.length + 1 := by
  rcases decode_eq_ok_iff.mp h with
    ⟨m, found, rest, _, rfl, hFields⟩
  have hFound := depth_le_of_reads hFields
  have hLe := elementDepth_ofList_le found
  simp only [Portion.depth, depth, fieldDepth_eq] at hFound ⊢
  omega

end Value

end TagWire

------------------------------------------------------------
-- Nesting
------------------------------------------------------------

namespace TagWire

namespace Value

/-
  Decoding is nested no deeper than there are bytes, whatever
  messages the schema lets stand inside each other.

  A decoding that is started has fewer bytes than the one it
  is inside of, so it is no more levels below the outermost
  one than that has bytes. There is no endless chain of them.
  A decoding goes by those that it starts and by no others,
  and as soon as there are more levels than bytes it does not
  matter what is below them. A decoded value has at most one
  level of messages more than there are bytes.
-/
theorem nesting_bounded
    (s : ResolvedSchema)
    (name : String)
    (data : List UInt8) :
    (∀ levels middle inner,
      StartsBelow s ⟨name, data⟩ levels middle →
        Starts s middle inner →
          inner.data.length < middle.data.length ∧
            levels + 1 + inner.data.length ≤ data.length) ∧
    WellFounded (fun inner outer => Starts s outer inner) ∧
    (∀ nested : MessageDecoder,
      (∀ inner, Starts s ⟨name, data⟩ inner →
        nested inner.name inner.data =
          decode s inner.name inner.data) →
        decodeWith s nested name data = decode s name data) ∧
    (∀ (below : MessageDecoder) (levels : Nat),
      data.length < levels →
        decodeFrom s below levels name data =
          decode s name data) ∧
    (∀ v, decode s name data = .ok v →
      v.depth ≤ data.length + 1) := by
  refine ⟨?_, wellFounded_starts s, ?_, ?_, ?_⟩
  · intro levels middle inner hMiddle hInner
    exact ⟨length_lt_of_starts hInner,
      (hMiddle.next hInner).levels_add_length_le⟩
  · intro nested hNested
    exact decodeWith_eq_of_starts ⟨name, data⟩ hNested
  · intro below levels hLevels
    exact decodeFrom_eq below name hLevels
  · intro v hDecode
    exact depth_le_of_decode hDecode

end Value

namespace Sample

/- Messages that hold at most one message of their own sort. -/
def linkText : String :=
  textOfLines
    (declarationLines "message Link"
      ["optional seq=1 Link next;"])

def linkSchema : ResolvedSchema where
  enums := []
  messages :=
    [
      {
        name := "Link"
        fields :=
          [
            ⟨"next", 1, true, .named (.message "Link"), ⟨2, 5⟩⟩
          ]
        position := ⟨1, 1⟩
      }
    ]
  services := []

theorem compile_linkText :
    compile linkText = .ok linkSchema := by
  apply Outcome.eq_ok_of_toOption
  unfold compile parseSource parseText tokenize linkText
  rw [toList_textOfLines]
  decide +kernel

end Sample

namespace Value

open Sample

/- Three tags make four links, as many as there can be. -/
theorem nesting_bounded_links :
    compile linkText = .ok linkSchema ∧
    Starts linkSchema ⟨"Link", [1, 1, 1]⟩ ⟨"Link", [1, 1]⟩ ∧
    Starts linkSchema ⟨"Link", [1, 1]⟩ ⟨"Link", [1]⟩ ∧
    1 + 1 + 1 ≤ [1, 1, 1].length ∧
    ∃ v,
      decode linkSchema "Link" [1, 1, 1] = .ok v ∧
        v.depth = 4 ∧ v.depth ≤ [1, 1, 1].length + 1 := by
  have hFirst :
      Starts linkSchema
        ⟨"Link", [1, 1, 1]⟩ ⟨"Link", [1, 1]⟩ := by
    intro e
    rfl
  have hSecond :
      Starts linkSchema ⟨"Link", [1, 1]⟩ ⟨"Link", [1]⟩ := by
    intro e
    rfl
  have hDecode :
      decode linkSchema "Link" [1, 1, 1] =
        .ok
          (message "Link"
            [("next", message "Link"
              [("next", message "Link"
                [("next", message "Link" [])])])]) := by
    rfl
  rcases nesting_bounded linkSchema "Link" [1, 1, 1] with
    ⟨hStarted, _, _, _, hDeep⟩
  exact ⟨compile_linkText, hFirst, hSecond,
    (hStarted 1 _ _ (.next .here hFirst) hSecond).2, _, hDecode,
    rfl, hDeep _ hDecode⟩

end Value

end TagWire
