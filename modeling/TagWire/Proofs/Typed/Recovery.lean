import TagWire.Proofs.Keyed
import TagWire.Proofs.Outcome
import TagWire.Proofs.Wire.Passing
import TagWire.Typed.Format

/-
  What a codec or a format writes, it reads back. Values have
  an end of their own, except messages: the tags of the fields
  that a message leaves out at its end must not stand behind
  it. A field that is set ends the message for sure.

  Main declarations:
    * `Codec.Recovers`
    * `Codec.OneZero`
    * `Codec.recovers_list_of_avoids`
    * `Codec.recovers_nested`
    * `Format.Recovers`
    * `Format.Recovers.field_any`
    * `Format.Recovers.field_set`
    * `Format.Recovers.decode`
-/

------------------------------------------------------------
-- Codecs
------------------------------------------------------------

namespace TagWire

/- The first of some bytes is none of some tags. -/
def Avoids
    (tags rest : List UInt8) : Prop :=
  ∀ t ∈ tags, rest.head? ≠ some t

theorem avoids_nil_left
    (rest : List UInt8) :
    Avoids [] rest :=
  fun _ h => absurd h List.not_mem_nil

theorem avoids_nil_right
    (tags : List UInt8) :
    Avoids tags [] := by
  intro t _ h
  cases h

namespace Codec

variable {κ α : Type}

/- Some bytes can be written for a value. -/
def Writes
    (c : Codec α)
    (a : α) : Prop :=
  ∃ bytes, c.encode a = .ok bytes

/-
  A value is read back from the bytes written for it, and they
  are passed, if none of some tags is right behind them.
-/
def Recovers
    (c : Codec α)
    (tags : List UInt8)
    (a : α) : Prop :=
  ∀ bytes cur cur',
    c.encode a = .ok bytes →
    cur.Passes bytes cur' →
    Avoids tags cur'.remaining →
    c.read cur = (.ok a, cur')

/- No other value is left out like the zero value. -/
def OneZero
    (c : Codec α) : Prop :=
  ∀ a, c.isZero a = true → a = c.zero

------------------------------------------------------------
-- Scalars
------------------------------------------------------------

/- The zeros of floats have two signs, other numbers have one. -/
theorem oneZero_int
    (k : IntKind) :
    (number (.int k)).OneZero :=
  fun _ h => eq_of_beq h

theorem writes_number
    {k : NumKind}
    (word : k.Word) :
    (number k).Writes word :=
  ⟨_, rfl⟩

theorem recovers_number
    {k : NumKind}
    (word : k.Word) :
    (number k).Recovers [] word := by
  intro bytes cur cur' h hPasses _
  cases h
  exact Reader.number_eq_ok_iff.mpr hPasses

theorem oneZero_string :
    string.OneZero :=
  fun _ h => String.isEmpty_iff.mp h

theorem writes_string
    {text : String}
    (h : text.utf8ByteSize ≤ maxLength) :
    string.Writes text :=
  exists_encodeString_iff.mpr h

theorem recovers_string
    (text : String) :
    string.Recovers [] text := by
  intro bytes cur cur' h hPasses _
  exact Reader.string_eq_ok_iff.mpr ⟨bytes, h, hPasses⟩

section Enum

variable [DecidableEq α]
variable {name : String}
variable {first : α}
variable {others : List α}
variable {variant : α → String}

theorem oneZero_enum :
    (enum name first others variant).OneZero :=
  fun _ h => of_decide_eq_true h

theorem writes_enum
    (a : α) :
    (enum name first others variant).Writes a :=
  ⟨_, rfl⟩

/- A declared variant is read back by its number. -/
theorem recovers_enum
    (hSize : (first :: others).length ≤ 2 ^ 32)
    {a : α}
    (hMem : a ∈ first :: others) :
    (enum name first others variant).Recovers [] a := by
  intro bytes cur cur' h hPasses _
  cases h
  have hLt := List.idxOf_lt_length_iff.mpr hMem
  have hWord :
      ∃ word : NumKind.Word (.int .uint32),
        word.toNat = (first :: others).idxOf a :=
    ⟨BitVec.ofNat 32 _,
      Nat.mod_eq_of_lt (Nat.lt_of_lt_of_le hLt hSize)⟩
  rcases hWord with ⟨word, hWord⟩
  rw [← hWord] at hPasses
  have hGet : (first :: others)[word.toNat]? = some a := by
    rw [hWord, List.getElem?_eq_getElem hLt,
      List.getElem_idxOf hLt]
  refine Reader.bind_eq_ok_iff.mpr
    ⟨word, cur', Reader.number_eq_ok_iff.mpr hPasses, ?_⟩
  rw [hGet]
  rfl

end Enum

------------------------------------------------------------
-- Containers
------------------------------------------------------------

theorem oneZero_list
    (c : Codec α) :
    (list c).OneZero :=
  fun _ h => List.isEmpty_iff.mp h

theorem writes_list
    {c : Codec α}
    {as : List α}
    (hLength : as.length ≤ maxLength)
    (hEach : ∀ a ∈ as, c.Writes a) :
    (list c).Writes as := by
  rcases exists_encodeLength_iff.mpr hLength with
    ⟨size, hSize⟩
  rcases Outcome.exists_mapM_eq_ok_iff.mpr hEach with
    ⟨parts, hParts⟩
  refine ⟨size ++ parts.flatten, ?_⟩
  simp only [list, encodeAll, hSize, hParts]
  rfl

/-
  Elements are read back one behind the other. Each of them
  has another one right behind it, or whatever is behind the
  list, so none may start with a tag that disturbs another.
-/
theorem recovers_list_of_avoids
    {c : Codec α}
    {tags : List UInt8}
    {as : List α}
    (hEach : ∀ a ∈ as, c.Recovers tags a)
    (hAvoids :
      ∀ a ∈ as, ∀ bytes rest,
        c.encode a = .ok bytes →
        Avoids tags rest →
        Avoids tags (bytes ++ rest)) :
    (list c).Recovers tags as := by
  -- Behind each element the bytes of the others avoid the tags.
  have hTimes :
      ∀ parts cur cur',
        as.mapM c.encode = .ok parts →
        cur.Passes parts.flatten cur' →
        Avoids tags cur'.remaining →
        Avoids tags cur.remaining ∧
          c.read.times as.length cur = (.ok as, cur') := by
    induction as with
    | nil =>
        intro parts cur cur' hParts hPasses hBehind
        cases hParts
        obtain rfl := (Cursor.Passes.refl cur).unique hPasses
        exact ⟨hBehind,
          Reader.times_zero_eq_ok_iff.mpr ⟨rfl, rfl⟩⟩
    | cons a rest ih =>
        intro parts cur cur' hParts hPasses hBehind
        rcases List.forall_mem_cons.mp hEach with
          ⟨hHead, hRest⟩
        rcases List.forall_mem_cons.mp hAvoids with
          ⟨hAvoid, hAvoids⟩
        simp only [List.mapM_cons, Outcome.bind_eq_ok_iff,
          Outcome.pure_eq_ok_iff] at hParts
        rcases hParts with
          ⟨bytes, hBytes, parts, hParts, rfl⟩
        rcases hPasses.exists_between with
          ⟨d, hFirst, hOthers⟩
        rcases
            ih hRest hAvoids parts d cur' hParts hOthers hBehind
          with ⟨hNext, hTimes⟩
        rw [hFirst.remaining_eq]
        exact
          ⟨hAvoid bytes _ hBytes hNext,
            Reader.times_succ_eq_ok_iff.mpr
              ⟨a, rest, d, rfl,
                hHead bytes cur d hBytes hFirst hNext, hTimes⟩⟩
  intro bytes cur cur' h hPasses hBehind
  simp only [list, encodeAll, Outcome.bind_eq_ok_iff,
    Outcome.pure_eq_ok_iff] at h
  rcases h with ⟨size, hSize, _, ⟨parts, hParts, rfl⟩, rfl⟩
  rcases hPasses.exists_between with ⟨d, hFront, hBack⟩
  exact Reader.bind_eq_ok_iff.mpr
    ⟨as.length, d,
      Reader.length_eq_ok_iff.mpr ⟨size, hSize, hFront⟩,
      (hTimes parts d cur' hParts hBack hBehind).2⟩

/- Elements that nothing disturbs are read back in any list. -/
theorem recovers_list
    {c : Codec α}
    {as : List α}
    (hEach : ∀ a ∈ as, c.Recovers [] a) :
    (list c).Recovers [] as :=
  recovers_list_of_avoids hEach
    fun _ _ _ _ _ _ => avoids_nil_left _

section Map

variable {c : Codec κ}
variable {d : Codec α}

theorem recovers_entry
    {e : κ × α}
    (hKey : c.Recovers [] e.1)
    (hValue : d.Recovers [] e.2) :
    (entry c d).Recovers [] e := by
  intro bytes cur cur' h hPasses _
  simp only [entry, Outcome.bind_eq_ok_iff,
    Outcome.pure_eq_ok_iff] at h
  rcases h with ⟨key, hKeyBytes, value, hValueBytes, rfl⟩
  rcases hPasses.exists_between with ⟨between, hFront, hBack⟩
  have hReadKey :=
    hKey key cur between hKeyBytes hFront (avoids_nil_left _)
  have hReadValue :=
    hValue value between cur' hValueBytes hBack
      (avoids_nil_left _)
  simp only [entry]
  rw [Reader.bind_of_ok hReadKey, Reader.bind_of_ok hReadValue]
  rfl

variable [Ord κ]
variable [Std.TransOrd κ]
variable [Std.LawfulEqOrd κ]

theorem oneZero_map :
    (map c d).OneZero :=
  fun _ h => Table.eq_of_entries (List.isEmpty_iff.mp h)

/- Entries are written in order, so all of them stay. -/
theorem recovers_map
    [BEq κ] [LawfulBEq κ]
    {t : Table κ α}
    (hEach :
      ∀ e ∈ t.entries,
        c.Recovers [] e.1 ∧ d.Recovers [] e.2) :
    (map c d).Recovers [] t := by
  intro bytes cur cur' h hPasses hAvoids
  have hEntries :
      (list (entry c d)).Recovers [] t.entries :=
    recovers_list fun e he =>
      recovers_entry (hEach e he).1 (hEach e he).2
  have hRead := hEntries bytes cur cur' h hPasses hAvoids
  simp only [map]
  rw [Reader.bind_of_ok hRead]
  have hSame : Table.ofList t.entries = t :=
    Table.eq_of_entries (Keyed.ofList_of_ascending t.ascending)
  rw [hSame]
  rfl

end Map

------------------------------------------------------------
-- Messages
------------------------------------------------------------

/- A message is read back when it is decoded from all ahead. -/
theorem recovers_nested
    {zero x : α}
    {encode : α → Except WireError (List UInt8)}
    {decode : List UInt8 → Except WireError α}
    {inspect : α → String}
    {tags : List UInt8}
    (h :
      ∀ bytes rest,
        encode x = .ok bytes →
        Avoids tags rest →
        decode (bytes ++ rest) = .ok x) :
    (nested zero encode decode inspect).Recovers tags x := by
  intro bytes cur cur' hEncode hPasses hAvoids
  have hEncode : encode x = .ok bytes := hEncode
  have hDecode := h bytes cur'.remaining hEncode hAvoids
  rw [← hPasses.remaining_eq] at hDecode
  have hSkip :
      Reader.skip bytes.length cur = (.ok (), cur') :=
    Reader.skip_eq_ok_iff.mpr ⟨bytes, rfl, hPasses⟩
  simp only [nested, Reader.bind_eq_ok_iff,
    Reader.lookahead_eq_ok_iff, Reader.ofExcept_eq_ok_iff,
    Reader.pure_eq_ok_iff]
  exact
    ⟨_, cur, ⟨rfl, rfl⟩, x, cur, ⟨hDecode, rfl⟩, bytes, cur,
      ⟨hEncode, rfl⟩, (), cur', hSkip, rfl, rfl⟩

section Message

variable {μ : Type}
variable [WireMessage μ]
variable [Inhabited μ]

theorem writes_message
    {x : μ}
    (h : ∃ bytes, WireMessage.encode x = .ok bytes) :
    (message μ).Writes x :=
  h

theorem recovers_message
    {tags : List UInt8}
    {x : μ}
    (h :
      ∀ bytes rest,
        WireMessage.encode x = .ok bytes →
        Avoids tags rest →
        WireMessage.decode (bytes ++ rest) = .ok x) :
    (message μ).Recovers tags x :=
  recovers_nested h

end Message

theorem oneZero_option
    (c : Codec α) :
    (option c).OneZero :=
  fun _ h => Option.isNone_iff_eq_none.mp h

theorem writes_some
    {c : Codec α}
    {a : α}
    (h : c.Writes a) :
    (option c).Writes (some a) :=
  h

theorem recovers_some
    {c : Codec α}
    {tags : List UInt8}
    {a : α}
    (h : c.Recovers tags a) :
    (option c).Recovers tags (some a) := by
  intro bytes cur cur' hEncode hPasses hAvoids
  have hRead := h bytes cur cur' hEncode hPasses hAvoids
  simp only [option]
  rw [Reader.bind_of_ok hRead]
  rfl

end Codec

end TagWire

------------------------------------------------------------
-- Formats
------------------------------------------------------------

namespace TagWire

namespace Format

variable {μ α β : Type}

/- Some bytes can be written for the fields of a message. -/
def Writes
    (f : Format μ α)
    (x : μ) : Prop :=
  ∃ bytes, f.encode x = .ok bytes

/-
  The fields of a message are read back from the bytes written
  for them, if none of some tags is right behind them. Reading
  starts with the first tag and ends with the one behind, so
  it is the same as reading this tag from where it stands.
-/
def Recovers
    (f : Format μ α)
    (tags : List UInt8)
    (x : μ)
    (a : α) : Prop :=
  ∀ bytes cur cur',
    f.encode x = .ok bytes →
    cur.Passes bytes cur' →
    Avoids tags cur'.remaining →
    (do
        let tag ← Reader.tag
        f.read.run tag) cur =
      (do
        let tag ← Reader.tag
        return (a, tag)) cur'

theorem writes_start
    (a : α)
    (x : μ) :
    (start a).Writes x :=
  ⟨_, rfl⟩

theorem recovers_start
    (a : α)
    (x : μ) :
    (start a).Recovers [] x a := by
  intro bytes cur cur' h hPasses _
  cases h
  rw [(Cursor.Passes.refl cur).unique hPasses]
  rfl

/- A format reads back what it does with more tags in mind. -/
theorem Recovers.mono
    {f : Format μ α}
    {tags tags' : List UInt8}
    {x : μ}
    {a : α}
    (h : f.Recovers tags x a)
    (hSubset : tags ⊆ tags') :
    f.Recovers tags' x a := by
  intro bytes cur cur' hEncode hPasses hAvoids
  exact h bytes cur cur' hEncode hPasses
    fun t ht => hAvoids t (hSubset ht)

variable {f : Format μ (β → α)}
variable {spec : FieldSpec}
variable {c : Codec β}
variable {get : μ → β}
variable {x : μ}

/- A field can be written if it is optional or has a value. -/
theorem Writes.field
    (hf : f.Writes x)
    (hUnset : c.isZero (get x) = true → spec.optional = true)
    (hSet : c.isZero (get x) = false → c.Writes (get x)) :
    (f.field spec c get).Writes x := by
  have hField :
      ∃ bytes, spec.encode c (get x) = .ok bytes := by
    unfold FieldSpec.encode FieldSpec.encodeUnset
    cases hZero : c.isZero (get x) with
    | true => exact ⟨[], by simp [hUnset hZero]⟩
    | false =>
        rcases hSet hZero with ⟨bytes, hBytes⟩
        refine ⟨spec.seq :: bytes, ?_⟩
        rw [hBytes]
        rfl
  rcases hf with ⟨before, hBefore⟩
  rcases hField with ⟨bytes, hBytes⟩
  refine ⟨before ++ bytes, ?_⟩
  simp only [Format.field, hBefore, hBytes]
  rfl

/- What goes on from the same result goes on the same way. -/
private theorem bind_eq_of_eq
    {ε γ δ : Type}
    {r r' : Reader ε γ}
    {g : γ → Reader ε δ}
    {cur cur' : Cursor}
    (h : r cur = r' cur') :
    (r >>= g) cur = (r' >>= g) cur' := by
  simp only [bind, h]

/- A field that is set is passed, with its tag in front. -/
private theorem read_of_set
    {tags : List UInt8}
    (hc : c.Recovers tags (get x))
    {inner : List UInt8}
    (hInner : c.encode (get x) = .ok inner)
    {cur cur' : Cursor}
    (hPasses : cur.Passes (spec.seq :: inner) cur')
    (hAvoids : Avoids tags cur'.remaining) :
    (do
        let tag ← Reader.tag
        spec.read c tag) cur =
      (do
        let tag ← Reader.tag
        return (get x, tag)) cur' := by
  rw [← List.singleton_append] at hPasses
  rcases hPasses.exists_between with ⟨d, hTag, hValue⟩
  rcases Reader.tag_of_cons hTag.remaining_eq with
    ⟨d', hRead, hTag'⟩
  obtain rfl := hTag.unique hTag'
  rw [Reader.bind_of_ok hRead, FieldSpec.read, if_pos rfl,
    Reader.bind_of_ok (hc inner d cur' hInner hValue hAvoids)]

/- A field that is unset is skipped in front of other tags. -/
private theorem read_of_unset
    (hOptional : spec.optional = true)
    (hZero : get x = c.zero)
    {cur : Cursor}
    (hHead : cur.remaining.head? ≠ some spec.seq) :
    (do
        let tag ← Reader.tag
        spec.read c tag) cur =
      (do
        let tag ← Reader.tag
        return (get x, tag)) cur := by
  rcases Reader.tag_eq cur with ⟨d, hRead⟩
  rw [Reader.bind_of_ok hRead, Reader.bind_of_ok hRead,
    FieldSpec.read, if_neg hHead, if_pos hOptional, hZero]

/-
  One more field is read back. The tag of an unset field must
  not stand behind, nor those of unset fields before it.
-/
theorem Recovers.field
    {tags tags' : List UInt8}
    {make : β → α}
    (hf : f.Recovers tags x make)
    (hSeq : spec.seq ∉ tags)
    (hUnset : c.isZero (get x) = true → get x = c.zero)
    (hSet :
      c.isZero (get x) = false → c.Recovers tags' (get x)) :
    (f.field spec c get).Recovers
      (if c.isZero (get x) then spec.seq :: tags else tags')
      x (make (get x)) := by
  intro bytes cur cur' h hPasses hAvoids
  simp only [Format.field, Outcome.bind_eq_ok_iff,
    Outcome.pure_eq_ok_iff] at h
  rcases h with ⟨before, hBefore, own, hOwn, rfl⟩
  rcases hPasses.exists_between with ⟨d, hFront, hBack⟩
  have hField :
      Avoids tags d.remaining ∧
        (do
            let tag ← Reader.tag
            spec.read c tag) d =
          (do
            let tag ← Reader.tag
            return (get x, tag)) cur' := by
    unfold FieldSpec.encode at hOwn
    cases hZero : c.isZero (get x) with
    | true =>
        rw [hZero, if_pos rfl] at hOwn
        rw [hZero, if_pos rfl] at hAvoids
        rcases List.forall_mem_cons.mp hAvoids with
          ⟨hHead, hAvoids⟩
        unfold FieldSpec.encodeUnset at hOwn
        split at hOwn
        · next hOptional =>
            cases hOwn
            obtain rfl := (Cursor.Passes.refl d).unique hBack
            exact ⟨hAvoids,
              read_of_unset hOptional (hUnset hZero) hHead⟩
        · cases hOwn
    | false =>
        rw [hZero] at hOwn hAvoids
        simp only [Bool.false_eq_true, if_false,
          Outcome.bind_eq_ok_iff, Outcome.pure_eq_ok_iff]
          at hOwn
        rcases hOwn with ⟨inner, hInner, rfl⟩
        refine ⟨?_, read_of_set (hSet hZero) hInner hBack
          hAvoids⟩
        intro t ht hHead
        rw [hBack.remaining_eq] at hHead
        cases hHead
        exact hSeq ht
  have hRead := hf before cur d hBefore hFront hField.1
  have hStep :
      ∀ tag,
        (f.field spec c get).read.run tag =
          f.read.run tag >>= fun r =>
            spec.read c r.2 >>= fun r' => pure (r.1 r'.1, r'.2) :=
    fun _ => rfl
  simp only [hStep]
  calc
    _ = (do
          let tag ← Reader.tag
          let r ← spec.read c tag
          return (make r.1, r.2)) d := by
      rw [← bind_assoc, bind_eq_of_eq hRead, bind_assoc]
      simp only [pure_bind]
    _ = _ := by
      rw [← bind_assoc, bind_eq_of_eq hField.2, bind_assoc]
      simp only [pure_bind]

/- A field that is set lets any tags stand behind it. -/
theorem Recovers.field_set
    {tags tags' : List UInt8}
    {make : β → α}
    (hf : f.Recovers tags x make)
    (hSeq : spec.seq ∉ tags)
    (hSet : c.isZero (get x) = false)
    (hc : c.Recovers tags' (get x)) :
    (f.field spec c get).Recovers tags' x (make (get x)) := by
  have hField :=
    Recovers.field hf hSeq (by simp [hSet]) fun _ => hc
  rwa [hSet] at hField

/- A field that may be set or not, in front of other tags. -/
theorem Recovers.field_any
    {tags tags' : List UInt8}
    {make : β → α}
    (hf : f.Recovers tags x make)
    (hSeq : spec.seq ∉ tags)
    (hZero : c.OneZero)
    (hSet :
      c.isZero (get x) = false → c.Recovers tags' (get x)) :
    (f.field spec c get).Recovers
      (spec.seq :: (tags ++ tags')) x (make (get x)) := by
  refine (Recovers.field hf hSeq (hZero _) hSet).mono ?_
  split
  · exact List.cons_subset_cons _ (List.subset_append_left _ _)
  · exact List.subset_cons_of_subset _
      (List.subset_append_right _ _)

/- A message is decoded from its bytes in front of others. -/
theorem Recovers.decode
    {f : Format μ μ}
    {tags : List UInt8}
    {x : μ}
    (hf : f.Recovers tags x x)
    {bytes rest : List UInt8}
    (hEncode : f.encode x = .ok bytes)
    (hAvoids : Avoids tags rest) :
    f.decode (bytes ++ rest) = .ok x := by
  rcases
      Cursor.exists_passes
        (Cursor.remaining_start (bytes ++ rest)) with
    ⟨d, hPasses, hRest⟩
  have hRead :=
    hf bytes _ d hEncode hPasses (hRest ▸ hAvoids)
  rcases Reader.tag_eq d with ⟨d', hTag⟩
  refine Reader.eval_eq_ok_iff.mpr ⟨d', ?_⟩
  rw [← bind_assoc, bind_eq_of_eq hRead, bind_assoc,
    Reader.bind_of_ok hTag]
  rfl

end Format

end TagWire
