import TagWire.Proofs.Outcome
import TagWire.Wire.Scalar

/-
  Successful reading as a relation between two cursors and
  the bytes that stand between them. The reader of an item
  succeeds exactly on what its writer gives, and moves past
  just these bytes.

  Main declarations:
    * `Cursor.Passes`
    * `exists_encodeLength_iff`
    * `Reader.Forward`
    * `Reader.number_eq_ok_iff`
    * `Reader.length_eq_ok_iff`
    * `Reader.string_eq_ok_iff`
    * `Reader.skip_eq_ok_iff`
-/

------------------------------------------------------------
-- Passed Bytes
------------------------------------------------------------

namespace TagWire

namespace Cursor

/- The second cursor stands behind some bytes of the first. -/
structure Passes
    (c : Cursor)
    (bytes : List UInt8)
    (c' : Cursor) : Prop where
  data_eq : c'.data = c.data
  remaining_eq : c.remaining = bytes ++ c'.remaining

namespace Passes

variable {c c' c'' : Cursor}
variable {bytes bytes' : List UInt8}

/- A cursor that stays has passed nothing. -/
theorem refl
    (c : Cursor) :
    c.Passes [] c :=
  ⟨rfl, rfl⟩

/- Passed bytes are joined by passing on. -/
theorem trans
    (h : c.Passes bytes c')
    (h' : c'.Passes bytes' c'') :
    c.Passes (bytes ++ bytes') c'' := by
  refine ⟨h'.data_eq.trans h.data_eq, ?_⟩
  rw [h.remaining_eq, h'.remaining_eq, List.append_assoc]

/- The index moves by the number of bytes passed. -/
theorem index_eq
    (h : c.Passes bytes c') :
    c'.index = c.index + bytes.length := by
  have hLength := congrArg List.length h.remaining_eq
  have hData := congrArg List.length h.data_eq
  have hBound := c.index_le
  have hBound' := c'.index_le
  simp only [List.length_append, length_remaining] at hLength
  omega

/- What remains is shorter by the bytes passed. -/
theorem length_remaining_eq
    (h : c.Passes bytes c') :
    c.remaining.length =
      bytes.length + c'.remaining.length := by
  rw [h.remaining_eq, List.length_append]

/- As many bytes passed are the same bytes and place. -/
theorem eq_of_length
    (h : c.Passes bytes c')
    (h' : c.Passes bytes' c'')
    (hLength : bytes.length = bytes'.length) :
    bytes = bytes' ∧ c' = c'' := by
  have hAppend :=
    h.remaining_eq.symm.trans h'.remaining_eq
  have hParts := List.append_inj hAppend hLength
  refine ⟨hParts.1, ?_⟩
  have hData := h.data_eq.trans h'.data_eq.symm
  have hIndex :=
    (h.index_eq.trans (by rw [hLength])).trans
      h'.index_eq.symm
  cases c'
  cases c''
  simp only at hData hIndex
  subst hData
  subst hIndex
  rfl

/- Passing the same bytes ends at the same place. -/
theorem unique
    (h : c.Passes bytes c')
    (h' : c.Passes bytes c'') :
    c' = c'' :=
  (h.eq_of_length h' rfl).2

end Passes

/- Cursors are equal where the same remains of the same. -/
theorem eq_iff
    {c c' : Cursor} :
    c = c' ↔
      c'.data = c.data ∧ c.remaining = c'.remaining := by
  constructor
  · intro h
    rcases h with rfl
    exact ⟨rfl, rfl⟩
  · intro h
    rcases h with ⟨hData, hRemaining⟩
    exact (Passes.refl c).unique ⟨hData, hRemaining⟩

/- Bytes that remain can be passed. -/
theorem exists_passes
    {c : Cursor}
    {bytes rest : List UInt8}
    (h : c.remaining = bytes ++ rest) :
    ∃ c', c.Passes bytes c' ∧ c'.remaining = rest := by
  have hLength := congrArg List.length h
  have hBound := c.index_le
  simp only [List.length_append, length_remaining] at hLength
  have hRest :
      c.data.drop (c.index + bytes.length) = rest := by
    rw [← List.drop_drop]
    show c.remaining.drop bytes.length = rest
    rw [h, List.drop_left]
  refine
    ⟨⟨c.data, c.index + bytes.length, by omega⟩,
      ⟨rfl, ?_⟩, hRest⟩
  rw [h]
  exact congrArg (bytes ++ ·) hRest.symm

/- Bytes that are passed are passed in two parts. -/
theorem Passes.exists_between
    {c c' : Cursor}
    {bytes bytes' : List UInt8}
    (h : c.Passes (bytes ++ bytes') c') :
    ∃ d, c.Passes bytes d ∧ d.Passes bytes' c' := by
  have hRemaining := h.remaining_eq
  rw [List.append_assoc] at hRemaining
  rcases exists_passes hRemaining with ⟨d, hFirst, hRest⟩
  rcases exists_passes hRest with ⟨d', hSecond, _⟩
  obtain rfl := (hFirst.trans hSecond).unique h
  exact ⟨d, hFirst, hSecond⟩

/- The next bytes can be passed, as far as there are some. -/
theorem exists_passes_take
    (c : Cursor)
    (n : Nat) :
    ∃ c', c.Passes (c.remaining.take n) c' := by
  rcases
      exists_passes (List.take_append_drop n c.remaining).symm with
    ⟨c', hPasses, _⟩
  exact ⟨c', hPasses⟩

end Cursor

end TagWire

------------------------------------------------------------
-- Sequences of Readers
------------------------------------------------------------

namespace TagWire

namespace Reader

variable {ε ε' α β : Type}
variable {c c' : Cursor}

/- Behind a success a sequence goes on with its value. -/
theorem bind_of_ok
    {r : Reader ε α}
    {f : α → Reader ε β}
    {a : α}
    (h : r c = (.ok a, c')) :
    (r >>= f) c = f a c' := by
  simp only [bind, h]

/- What is read is changed, and where it ends is not. -/
theorem fst_bind_pure
    (r : Reader ε α)
    (f : α → β)
    (c : Cursor) :
    ((r >>= fun a => pure (f a)) c).1 = (r c).1.map f := by
  simp only [bind]
  rcases r c with ⟨_ | a, d⟩ <;> rfl

/- A sequence succeeds when its parts do, one after another. -/
theorem bind_eq_ok_iff
    {r : Reader ε α}
    {f : α → Reader ε β}
    {b : β} :
    (r >>= f) c = (.ok b, c') ↔
      ∃ a d, r c = (.ok a, d) ∧ f a d = (.ok b, c') := by
  simp only [bind]
  rcases hRun : r c with ⟨_ | a, d⟩
  · simp
  · constructor
    · intro h
      exact ⟨a, d, rfl, h⟩
    · intro h
      rcases h with ⟨a', d', hSame, h⟩
      cases hSame
      exact h

/- Giving a value moves nothing. -/
theorem pure_eq_ok_iff
    {a b : α} :
    (pure a : Reader ε α) c = (.ok b, c') ↔
      a = b ∧ c = c' := by
  simp [pure]

/- A failure is no success. -/
theorem fail_ne_ok
    {e : ε}
    {a : α} :
    (fail e : Reader ε α) c ≠ (.ok a, c') := by
  simp [fail]

/- A result taken over moves nothing. -/
theorem ofExcept_eq_ok_iff
    {r : Except ε α}
    {a : α} :
    ofExcept r c = (.ok a, c') ↔ r = .ok a ∧ c = c' := by
  simp [ofExcept]

/- Renaming errors leaves success as it is. -/
theorem mapError_eq_ok_iff
    {f : ε → ε'}
    {r : Reader ε α}
    {a : α} :
    mapError f r c = (.ok a, c') ↔ r c = (.ok a, c') := by
  unfold mapError
  rcases r c with ⟨_ | _, _⟩ <;> simp

/- Looking ahead gives what remains. -/
theorem lookahead_eq_ok_iff
    {data : List UInt8} :
    (lookahead : Reader ε (List UInt8)) c = (.ok data, c') ↔
      c.remaining = data ∧ c = c' := by
  simp [lookahead]

/- A value from the start is what a success there gives. -/
theorem eval_eq_ok_iff
    {r : Reader ε α}
    {data : List UInt8}
    {a : α} :
    r.eval data = .ok a ↔
      ∃ c', r (Cursor.start data) = (.ok a, c') := by
  unfold eval
  rcases r (Cursor.start data) with ⟨_ | _, d⟩ <;> simp

end Reader

end TagWire

------------------------------------------------------------
-- Lengths That Fit
------------------------------------------------------------

namespace TagWire

open Text

/- A length is encoded when it fits its prefix. -/
theorem exists_encodeLength_iff
    {n : Nat} :
    (∃ bytes, encodeLength n = .ok bytes) ↔
      n ≤ maxLength := by
  unfold encodeLength
  split
  · next hLe => exact iff_of_true ⟨_, rfl⟩ hLe
  · next hGt => simp [hGt]

/- A length prefix takes four bytes. -/
theorem length_of_encodeLength
    {n : Nat}
    {bytes : List UInt8}
    (h : encodeLength n = .ok bytes) :
    bytes.length = 4 := by
  unfold encodeLength at h
  split at h
  · cases h
    exact LittleEndian.length_bytes 4 n
  · cases h

/- Different lengths have different prefixes. -/
theorem eq_of_encodeLength
    {n n' : Nat}
    {bytes : List UInt8}
    (h : encodeLength n = .ok bytes)
    (h' : encodeLength n' = .ok bytes) :
    n = n' := by
  have hNumber :
      ∀ k, encodeLength k = .ok bytes →
        LittleEndian.number bytes = k := by
    intro k hk
    unfold encodeLength at hk
    split at hk
    · next hLe =>
        cases hk
        rw [LittleEndian.number_bytes]
        apply Nat.mod_eq_of_lt
        exact Nat.lt_of_le_of_lt hLe (by decide)
    · cases hk
  exact (hNumber n h).symm.trans (hNumber n' h')

/- A string is encoded when its length is. -/
theorem exists_encodeString_iff
    {text : String} :
    (∃ bytes, encodeString text = .ok bytes) ↔
      text.utf8ByteSize ≤ maxLength := by
  rw [← exists_encodeLength_iff, ← Utf8.length_encode]
  unfold encodeString
  simp only [Outcome.bind_eq_ok_iff, Outcome.pure_eq_ok_iff]
  constructor
  · intro h
    rcases h with ⟨_, size, hSize, _⟩
    exact ⟨size, hSize⟩
  · intro h
    rcases h with ⟨size, hSize⟩
    exact ⟨_, size, hSize, rfl⟩

end TagWire

------------------------------------------------------------
-- Readers of Items
------------------------------------------------------------

namespace TagWire

open Text

namespace Reader

variable {ε : Type}
variable {c c' : Cursor}

/- Some bytes are read exactly when as many remain. -/
theorem bytes_eq_ok_iff
    {n : Nat}
    {bs : List UInt8} :
    bytes n c = (.ok bs, c') ↔
      bs.length = n ∧ c.Passes bs c' := by
  have hRemaining := c.length_remaining
  have hBound := c.index_le
  unfold bytes
  by_cases hEnough : c.index + n ≤ c.data.length
  · rw [dif_pos hEnough]
    have hPasses :
        c.Passes (c.remaining.take n)
          ⟨c.data, c.index + n, hEnough⟩ := by
      refine ⟨rfl, ?_⟩
      show c.remaining =
        c.remaining.take n ++ c.data.drop (c.index + n)
      rw [← List.drop_drop]
      exact (List.take_append_drop n c.remaining).symm
    have hLength : (c.remaining.take n).length = n := by
      rw [List.length_take]
      omega
    constructor
    · intro h
      cases h
      exact ⟨hLength, hPasses⟩
    · intro h
      rcases h with ⟨hSize, hPassed⟩
      rcases
          hPasses.eq_of_length hPassed (hLength.trans hSize.symm) with
        ⟨rfl, rfl⟩
      rfl
  · rw [dif_neg hEnough]
    constructor
    · intro h
      cases h
    · intro h
      rcases h with ⟨hSize, hPassed⟩
      have hLength := hPassed.length_remaining_eq
      omega

/- Bytes are skipped exactly when as many remain. -/
theorem skip_eq_ok_iff
    {n : Nat} :
    skip n c = (.ok (), c') ↔
      ∃ bs, bs.length = n ∧ c.Passes bs c' := by
  unfold skip
  rw [bind_eq_ok_iff]
  constructor
  · intro h
    rcases h with ⟨bs, d, hBytes, hUnit⟩
    rcases pure_eq_ok_iff.mp hUnit with ⟨_, rfl⟩
    exact ⟨bs, bytes_eq_ok_iff.mp hBytes⟩
  · intro h
    rcases h with ⟨bs, hBytes⟩
    exact ⟨bs, c', bytes_eq_ok_iff.mpr hBytes, rfl⟩

/- A tag is the byte ahead, and is passed. -/
theorem tag_of_cons
    {b : UInt8}
    {rest : List UInt8}
    (h : c.remaining = b :: rest) :
    ∃ d, (tag : Reader ε (Option UInt8)) c = (.ok (some b), d) ∧
      c.Passes [b] d := by
  have hGet : c.data[c.index]? = some b := by
    have hHead := congrArg List.head? h
    rwa [Cursor.remaining, List.head?_drop] at hHead
  have hLt : c.index < c.data.length :=
    (List.getElem?_eq_some_iff.mp hGet).1
  refine ⟨⟨c.data, c.index + 1, hLt⟩, ?_, rfl, ?_⟩
  · unfold tag byte
    split
    · next hByte =>
        split at hByte
        · next hSome =>
            rw [hGet] at hSome
            cases hSome
            cases hByte
            rfl
        · cases hByte
    · next hByte =>
        split at hByte
        · cases hByte
        · next hNone =>
            rw [hGet] at hNone
            cases hNone
  · have hRest : c.data.drop (c.index + 1) = rest := by
      rw [← List.drop_drop]
      show c.remaining.drop 1 = rest
      rw [h]
      rfl
    show c.remaining = b :: c.data.drop (c.index + 1)
    rw [hRest, h]

/- At the end of the input there is no tag. -/
theorem tag_of_nil
    (h : c.remaining = []) :
    (tag : Reader ε (Option UInt8)) c = (.ok none, c) := by
  have hGet : c.data[c.index]? = none := by
    have hHead := congrArg List.head? h
    rwa [Cursor.remaining, List.head?_drop] at hHead
  unfold tag byte
  split
  · next hByte =>
      split at hByte
      · next hSome =>
          rw [hGet] at hSome
          cases hSome
      · cases hByte
  · next hByte =>
      split at hByte
      · cases hByte
      · cases hByte
        rfl

/- Reading a tag always gives what stands ahead. -/
theorem tag_eq
    (c : Cursor) :
    ∃ d, (tag : Reader ε (Option UInt8)) c =
      (.ok c.remaining.head?, d) := by
  cases hRemaining : c.remaining with
  | nil => exact ⟨c, tag_of_nil hRemaining⟩
  | cons b rest =>
      rcases tag_of_cons hRemaining with ⟨d, hTag, _⟩
      exact ⟨d, hTag⟩

/- A byte is a tag that has to be there. -/
theorem byte_eq_ok_iff_tag
    {b : UInt8} :
    byte c = (.ok b, c') ↔
      (tag : Reader ε (Option UInt8)) c = (.ok (some b), c') := by
  unfold tag
  rcases byte c with ⟨_ | _, _⟩ <;> simp

/- A tag is read exactly where it is ahead. -/
theorem tag_eq_some_iff
    {b : UInt8} :
    (tag : Reader ε (Option UInt8)) c = (.ok (some b), c') ↔
      c.Passes [b] c' := by
  cases hRemaining : c.remaining with
  | nil =>
      rw [tag_of_nil hRemaining]
      refine iff_of_false (by simp) fun h => ?_
      have hLength := h.remaining_eq
      rw [hRemaining] at hLength
      cases hLength
  | cons b' rest =>
      rcases tag_of_cons (ε := ε) hRemaining with
        ⟨d, hTag, hPasses⟩
      rw [hTag]
      constructor
      · intro h
        cases h
        exact hPasses
      · intro h
        rcases hPasses.eq_of_length h rfl with ⟨hSame, rfl⟩
        cases hSame
        rfl

/- A byte is read exactly where it is ahead. -/
theorem byte_eq_ok_iff
    {b : UInt8} :
    byte c = (.ok b, c') ↔ c.Passes [b] c' :=
  (byte_eq_ok_iff_tag (ε := WireError)).trans tag_eq_some_iff

/- A number is read exactly where its bytes stand. -/
theorem number_eq_ok_iff
    {k : NumKind}
    {w : k.Word} :
    number k c = (.ok w, c') ↔
      c.Passes (LittleEndian.encode w) c' := by
  unfold number
  simp only [bind_eq_ok_iff, pure_eq_ok_iff, bytes_eq_ok_iff]
  constructor
  · intro h
    rcases h with ⟨bs, d, ⟨hSize, hPasses⟩, rfl, rfl⟩
    rwa [LittleEndian.encode_decode hSize]
  · intro h
    exact
      ⟨LittleEndian.encode w, c',
        ⟨LittleEndian.length_encode w, h⟩,
        LittleEndian.decode_encode w, rfl⟩

private theorem value_int32
    (w : BitVec 32) :
    IntKind.value .int32 w =
      if w.toNat ≤ maxLength then
        (w.toNat : Int)
      else
        (w.toNat : Int) - 4294967296 := by
  have hMax : maxLength = 2147483647 := by decide
  have hLt := w.isLt
  show w.toInt = _
  rw [BitVec.toInt_eq_toNat_cond, hMax]
  split <;> split <;> omega

/- The last step of reading a length, its word being known. -/
private theorem ofWord_eq_ok_iff
    {w : BitVec 32}
    {d : Cursor}
    {n : Nat} :
    (if IntKind.value .int32 w < 0 then
        fail (.invalidLength (IntKind.value .int32 w))
      else
        return (IntKind.value .int32 w).toNat :
      Reader WireError Nat) d = (.ok n, c') ↔
      w.toNat = n ∧ n ≤ maxLength ∧ d = c' := by
  have hLt := w.isLt
  rw [value_int32]
  by_cases hLe : w.toNat ≤ maxLength
  · rw [if_pos hLe, if_neg (by omega), pure_eq_ok_iff,
      Int.toNat_natCast]
    constructor
    · intro h
      rcases h with ⟨rfl, hSame⟩
      exact ⟨rfl, hLe, hSame⟩
    · intro h
      rcases h with ⟨hSame, _, hCursor⟩
      exact ⟨hSame, hCursor⟩
  · rw [if_neg hLe, if_pos (by omega)]
    constructor
    · intro h
      exact absurd h fail_ne_ok
    · intro h
      rcases h with ⟨rfl, hSmall, _⟩
      exact absurd hSmall hLe

/- A length is read exactly where it was written. -/
theorem length_eq_ok_iff
    {n : Nat} :
    length c = (.ok n, c') ↔
      ∃ bs, encodeLength n = .ok bs ∧ c.Passes bs c' := by
  unfold length encodeLength
  simp only [bind_eq_ok_iff, number_eq_ok_iff]
  constructor
  · intro h
    rcases h with ⟨w, d, hPasses, hRest⟩
    rcases ofWord_eq_ok_iff.mp hRest with ⟨rfl, hLe, rfl⟩
    exact ⟨_, if_pos hLe, hPasses⟩
  · intro h
    rcases h with ⟨bs, hEncode, hPasses⟩
    split at hEncode
    · next hLe =>
        cases hEncode
        have hWord : (BitVec.ofNat 32 n).toNat = n := by
          have hMax : maxLength < 2 ^ 32 := by decide
          rw [BitVec.toNat_ofNat]
          exact Nat.mod_eq_of_lt (Nat.lt_of_le_of_lt hLe hMax)
        have hBytes :
            @LittleEndian.encode 4 (BitVec.ofNat 32 n) =
              LittleEndian.bytes 4 n :=
          congrArg (LittleEndian.bytes 4) hWord
        exact
          ⟨BitVec.ofNat 32 n, c', hBytes ▸ hPasses,
            ofWord_eq_ok_iff.mpr ⟨hWord, hLe, rfl⟩⟩
    · cases hEncode

/- A string is read exactly where it was written. -/
theorem string_eq_ok_iff
    {s : String} :
    string c = (.ok s, c') ↔
      ∃ bs, encodeString s = .ok bs ∧ c.Passes bs c' := by
  unfold string encodeString
  simp only [bind_eq_ok_iff, length_eq_ok_iff,
    bytes_eq_ok_iff, ofExcept_eq_ok_iff]
  constructor
  · intro h
    rcases h with
      ⟨n, d, ⟨front, hFront, hPasses⟩, bs, d', ⟨hSize,
       hPasses'⟩, hDecode, rfl⟩
    have hText : Utf8.decode bs = .ok s := by
      cases hResult : Utf8.decode bs with
      | error e =>
          rw [hResult] at hDecode
          cases hDecode
      | ok t =>
          rw [hResult] at hDecode
          cases hDecode
          rfl
    have hBytes := Utf8.encode_of_decode hText
    refine ⟨front ++ bs, ?_, hPasses.trans hPasses'⟩
    rw [hBytes, hSize, hFront]
    rfl
  · intro h
    rcases h with ⟨bs, hEncode, hPasses⟩
    cases hFront : encodeLength (Utf8.encode s).length with
    | error e =>
        rw [hFront] at hEncode
        cases hEncode
    | ok front =>
        rw [hFront] at hEncode
        cases hEncode
        have hRemaining := hPasses.remaining_eq
        rw [List.append_assoc] at hRemaining
        rcases Cursor.exists_passes hRemaining with
          ⟨d, hFirst, hRest⟩
        rcases Cursor.exists_passes hRest with
          ⟨d', hSecond, _⟩
        obtain rfl := (hFirst.trans hSecond).unique hPasses
        refine
          ⟨_, d, ⟨front, hFront, hFirst⟩, _, d',
            ⟨rfl, hSecond⟩, ?_, rfl⟩
        rw [Utf8.decode_encode]
        rfl

end Reader

end TagWire

------------------------------------------------------------
-- Repetition
------------------------------------------------------------

namespace TagWire

namespace Reader

variable {ε α : Type}
variable {c c' : Cursor}

/- Reading nothing gives nothing. -/
theorem times_zero_eq_ok_iff
    {r : Reader ε α}
    {as : List α} :
    times r 0 c = (.ok as, c') ↔ as = [] ∧ c = c' := by
  rw [times_zero, pure_eq_ok_iff]
  exact and_congr_left' eq_comm

/- Reading once more gives one value more in front. -/
theorem times_succ_eq_ok_iff
    {r : Reader ε α}
    {n : Nat}
    {as : List α} :
    times r (n + 1) c = (.ok as, c') ↔
      ∃ a rest d,
        as = a :: rest ∧ r c = (.ok a, d) ∧
          times r n d = (.ok rest, c') := by
  rw [times_succ]
  simp only [bind_eq_ok_iff, pure_eq_ok_iff]
  constructor
  · intro h
    rcases h with ⟨a, d, hFirst, rest, d', hRest, rfl, rfl⟩
    exact ⟨a, rest, d, rfl, hFirst, hRest⟩
  · intro h
    rcases h with ⟨a, rest, d, rfl, hFirst, hRest⟩
    exact ⟨a, d, hFirst, rest, c', hRest, rfl, rfl⟩

/- As many values are read as were asked for. -/
theorem length_of_times_eq_ok
    {r : Reader ε α}
    {n : Nat}
    {as : List α}
    (h : times r n c = (.ok as, c')) :
    n = as.length := by
  induction n generalizing as c with
  | zero =>
      rcases times_zero_eq_ok_iff.mp h with ⟨rfl, _⟩
      rfl
  | succ n ih =>
      rcases times_succ_eq_ok_iff.mp h with
        ⟨a, rest, d, rfl, _, hRest⟩
      rw [List.length_cons, ← ih hRest]

end Reader

end TagWire

------------------------------------------------------------
-- Moving Forward
------------------------------------------------------------

namespace TagWire

namespace Reader

variable {ε ε' α β : Type}

/- A reader that succeeds only behind where it started. -/
def Forward
    (r : Reader ε α) : Prop :=
  ∀ c a c', r c = (.ok a, c') → ∃ bs, c.Passes bs c'

theorem forward_pure
    (a : α) :
    Forward (pure a : Reader ε α) := by
  intro c b c' h
  rcases pure_eq_ok_iff.mp h with ⟨_, rfl⟩
  exact ⟨[], Cursor.Passes.refl c⟩

theorem forward_fail
    (e : ε) :
    Forward (fail e : Reader ε α) :=
  fun _ _ _ h => absurd h fail_ne_ok

/- A sequence moves forward if its parts do. -/
theorem forward_bind
    {r : Reader ε α}
    {f : α → Reader ε β}
    (hr : Forward r)
    (hf : ∀ a, Forward (f a)) :
    Forward (r >>= f) := by
  intro c b c' h
  rcases bind_eq_ok_iff.mp h with ⟨a, d, hFirst, hSecond⟩
  rcases hr c a d hFirst with ⟨bs, hPasses⟩
  rcases hf a d b c' hSecond with ⟨bs', hPasses'⟩
  exact ⟨bs ++ bs', hPasses.trans hPasses'⟩

theorem forward_mapError
    {f : ε → ε'}
    {r : Reader ε α}
    (hr : Forward r) :
    Forward (mapError f r) :=
  fun c a c' h => hr c a c' (mapError_eq_ok_iff.mp h)

theorem forward_ofExcept
    (r : Except ε α) :
    Forward (ofExcept r) := by
  intro c a c' h
  rcases ofExcept_eq_ok_iff.mp h with ⟨_, rfl⟩
  exact ⟨[], Cursor.Passes.refl c⟩

theorem forward_lookahead :
    Forward (lookahead : Reader ε (List UInt8)) := by
  intro c a c' h
  rcases lookahead_eq_ok_iff.mp h with ⟨_, rfl⟩
  exact ⟨[], Cursor.Passes.refl c⟩

theorem forward_skip
    (n : Nat) :
    Forward (skip n) := by
  intro c a c' h
  rcases skip_eq_ok_iff.mp h with ⟨bs, _, hPasses⟩
  exact ⟨bs, hPasses⟩

theorem forward_number
    (k : NumKind) :
    Forward (number k) :=
  fun _ _ _ h => ⟨_, number_eq_ok_iff.mp h⟩

theorem forward_length :
    Forward length := by
  intro c n c' h
  rcases length_eq_ok_iff.mp h with ⟨bs, _, hPasses⟩
  exact ⟨bs, hPasses⟩

theorem forward_string :
    Forward string := by
  intro c s c' h
  rcases string_eq_ok_iff.mp h with ⟨bs, _, hPasses⟩
  exact ⟨bs, hPasses⟩

/- Repetition moves forward if each round does. -/
theorem forward_times
    {r : Reader ε α}
    (hr : Forward r)
    (n : Nat) :
    Forward (times r n) := by
  induction n with
  | zero => exact forward_pure []
  | succ n ih =>
      rw [times_succ]
      exact forward_bind hr fun a =>
        forward_bind ih fun rest => forward_pure _

end Reader

end TagWire
