import TagWire.Proofs.Wire.Items

/-
  How far each step of reading moves the cursor, whether it
  succeeds or fails. A step that is followed by others may
  fail without an end to the run: the next one goes on from
  where the failure left the cursor.

  Main declarations:
    * `ReadStep.Moves`
    * `ReadStep.run_moves`
    * `ReadStep.after`
    * `ReadStep.moves_after`
-/

------------------------------------------------------------
-- Sizes of Items
------------------------------------------------------------

namespace TagWire

open Text

namespace Item

/- The number of bytes of an item. -/
def size : Item → Nat
| byte _ => 1
| tag _ => 1
| number k _ => k.size
| length _ => 4
| string s => 4 + s.utf8ByteSize
| bytes bs => bs.length

/- An item is encoded in as many bytes. -/
theorem length_of_encode
    {item : Item}
    {bytes : List UInt8}
    (h : item.encode = .ok bytes) :
    bytes.length = item.size := by
  cases item with
  | byte b | tag b | bytes bs =>
      cases h
      rfl
  | number k w =>
      cases h
      exact LittleEndian.length_encode w
  | length n => exact length_of_encodeLength h
  | string s =>
      rcases Outcome.bind_eq_ok_iff.mp h with
        ⟨front, hFront, hBytes⟩
      obtain rfl := Outcome.pure_eq_ok_iff.mp hBytes
      rw [List.length_append, length_of_encodeLength hFront,
        Utf8.length_encode]
      rfl

end Item

end TagWire

------------------------------------------------------------
-- Movement
------------------------------------------------------------

namespace TagWire

open Text

namespace Cursor

/- The next four bytes are a length prefix for a number. -/
def HasPrefix
    (c : Cursor)
    (n : Int) : Prop :=
  4 ≤ c.remaining.length ∧
    IntKind.value .int32
      (LittleEndian.decode 4 (c.remaining.take 4)) = n

end Cursor

namespace ReadStep

/- The bytes that have to be there for a step to move. -/
def need : ReadStep → Nat
| byte => 1
| tag => 0
| number k => k.size
| length => 4
| string => 4
| bytes n => n
| skip n => n

/-
  What a step comes to at a cursor, and the number of bytes
  by which it moves.
-/
inductive Moves (c : Cursor) :
    ReadStep → Except WireError (Option Item) → Nat → Prop
/- An item is ahead, and the step moves behind it. -/
| reads
    {item : Item}
    {bytes : List UInt8}
    (hEncode : item.encode = .ok bytes)
    (hAhead : bytes <+: c.remaining) :
    Moves c item.step (.ok (some item)) item.size
/- At the end there is no tag. -/
| noTag
    (hEnd : c.remaining = []) :
    Moves c .tag (.ok none) 0
| skips
    {n : Nat}
    (hEnough : n ≤ c.remaining.length) :
    Moves c (.skip n) (.ok none) n
/- A step that finds too few bytes stays. -/
| stays
    {step : ReadStep}
    (hFew : c.remaining.length < step.need) :
    Moves c step (.error (.unexpectedEnd c.index step.need)) 0
/- A prefix with a negative number has been passed. -/
| negative
    {step : ReadStep}
    {n : Int}
    (hStep : step = .length ∨ step = .string)
    (hPrefix : c.HasPrefix n)
    (hNegative : n < 0) :
    Moves c step (.error (.invalidLength n)) 4
/- A prefix that promises more than there is, too. -/
| tooLong
    {n : Nat}
    (hPrefix : c.HasPrefix n)
    (hFew : c.remaining.length < 4 + n) :
    Moves c .string (.error (.unexpectedEnd (c.index + 4) n)) 4
/- Bytes that are no text have been passed with their prefix. -/
| noText
    {n : Nat}
    {fault : Utf8.Fault}
    (hPrefix : c.HasPrefix n)
    (hEnough : 4 + n ≤ c.remaining.length)
    (hText :
      Utf8.decode ((c.remaining.drop 4).take n) =
        .error fault) :
    Moves c .string (.error (.invalidUtf8 fault)) (4 + n)

end ReadStep

end TagWire

------------------------------------------------------------
-- Single Steps
------------------------------------------------------------

namespace TagWire

open Text

namespace Reader

variable {c : Cursor}

/- Where enough bytes are left, they are read. -/
theorem bytes_of_le
    {n : Nat}
    (h : n ≤ c.remaining.length) :
    ∃ d,
      bytes n c = (.ok (c.remaining.take n), d) ∧
        c.Passes (c.remaining.take n) d := by
  rcases c.exists_passes_take n with ⟨d, hPasses⟩
  exact ⟨d,
    bytes_eq_ok_iff.mpr ⟨List.length_take_of_le h, hPasses⟩,
    hPasses⟩

/- Where too few are left, nothing moves. -/
theorem bytes_of_lt
    {n : Nat}
    (h : c.remaining.length < n) :
    bytes n c = (.error (.unexpectedEnd c.index n), c) := by
  rw [c.length_remaining] at h
  unfold bytes
  rw [dif_neg (by omega)]

/- An action that fails first fails as the whole. -/
theorem bind_of_error
    {ε α β : Type}
    {r : Reader ε α}
    {f : α → Reader ε β}
    {e : ε}
    {d : Cursor}
    (h : r c = (.error e, d)) :
    (r >>= f) c = (.error e, d) := by
  simp only [bind, h]

theorem byte_of_nil
    (h : c.remaining = []) :
    byte c = (.error (.unexpectedEnd c.index 1), c) := by
  have hEnd : c.data[c.index]? = none := by
    rw [← List.head?_drop]
    exact congrArg List.head? h
  unfold byte
  split
  · next hSome =>
      rw [hEnd] at hSome
      cases hSome
  · rfl

/-
  Four bytes that are left are a length prefix, of a length
  or of a negative number.
-/
theorem length_of_prefix
    {n : Int}
    (h : c.HasPrefix n) :
    ∃ d,
      c.Passes (c.remaining.take 4) d ∧
        length c =
          (if n < 0 then
            .error (.invalidLength n)
          else
            .ok n.toNat, d) := by
  rcases h with ⟨hEnough, rfl⟩
  rcases bytes_of_le hEnough with ⟨d, hBytes, hPasses⟩
  have hNumber :
      number (.int .int32) c =
        (.ok (LittleEndian.decode 4 (c.remaining.take 4)), d) :=
    bind_of_ok hBytes
  refine ⟨d, hPasses, ?_⟩
  unfold length
  rw [bind_of_ok hNumber]
  generalize LittleEndian.decode 4 (c.remaining.take 4) = w
  show
    (if IntKind.value .int32 w < 0 then _ else _ :
      Reader WireError Nat) d = _
  split <;> rfl

end Reader

end TagWire

namespace TagWire

open Text

namespace ReadStep

open Reader

variable {c : Cursor}

/- A step that reads an item moves behind it. -/
private theorem moves_of_ok
    {step : ReadStep}
    {item : Item}
    {d : Cursor}
    (h : step.run c = (.ok (some item), d)) :
    ∃ bytes,
      c.Passes bytes d ∧
        Moves c step (.ok (some item)) bytes.length := by
  rcases run_eq_ok_iff.mp h with
    ⟨rfl, bytes, hEncode, hPasses⟩
  refine ⟨bytes, hPasses, ?_⟩
  rw [Item.length_of_encode hEncode]
  exact .reads hEncode ⟨d.remaining, hPasses.remaining_eq.symm⟩

/- A step that fails at once moves nothing. -/
private theorem moves_of_few
    {step : ReadStep}
    (hFew : c.remaining.length < step.need)
    (hRun :
      step.run c =
        (.error (.unexpectedEnd c.index step.need), c)) :
    ∃ result bytes d,
      step.run c = (result, d) ∧ c.Passes bytes d ∧
        Moves c step result bytes.length :=
  ⟨_, [], c, hRun, .refl c, .stays hFew⟩

/- A byte is ahead, or the end is. -/
private theorem byte_moves
    (c : Cursor) :
    ∃ result bytes d,
      byte.run c = (result, d) ∧ c.Passes bytes d ∧
        Moves c byte result bytes.length := by
  cases hRemaining : c.remaining with
  | nil =>
      refine moves_of_few ?_ ?_
      · rw [hRemaining]
        exact Nat.zero_lt_one
      · exact bind_of_error (byte_of_nil hRemaining)
  | cons b rest =>
      rcases tag_of_cons (ε := WireError) hRemaining with
        ⟨d, _, hPasses⟩
      have hRun :
          byte.run c = (.ok (some (.byte b)), d) :=
        bind_of_ok (byte_eq_ok_iff.mpr hPasses)
      rcases moves_of_ok hRun with ⟨bytes, hPassed, hMoves⟩
      exact ⟨_, bytes, d, hRun, hPassed, hMoves⟩

/- Reading a tag never fails. -/
private theorem tag_moves
    (c : Cursor) :
    ∃ result bytes d,
      tag.run c = (result, d) ∧ c.Passes bytes d ∧
        Moves c tag result bytes.length := by
  cases hRemaining : c.remaining with
  | nil =>
      exact ⟨_, [], c, bind_of_ok (tag_of_nil hRemaining),
        .refl c, .noTag hRemaining⟩
  | cons b rest =>
      rcases tag_of_cons hRemaining with ⟨d, hTag, _⟩
      have hRun :
          tag.run c = (.ok (some (.tag b)), d) :=
        bind_of_ok hTag
      rcases moves_of_ok hRun with ⟨bytes, hPassed, hMoves⟩
      exact ⟨_, bytes, d, hRun, hPassed, hMoves⟩

private theorem number_moves
    (k : NumKind)
    (c : Cursor) :
    ∃ result bytes d,
      (number k).run c = (result, d) ∧ c.Passes bytes d ∧
        Moves c (number k) result bytes.length := by
  by_cases hFew : c.remaining.length < k.size
  · refine moves_of_few hFew ?_
    exact bind_of_error (bind_of_error (bytes_of_lt hFew))
  · rcases bytes_of_le (Nat.le_of_not_lt hFew) with
      ⟨d, hBytes, _⟩
    have hRun :
        (number k).run c =
          (.ok
            (some
              (.number k
                (LittleEndian.decode k.size
                  (c.remaining.take k.size)))), d) :=
      bind_of_ok (bind_of_ok hBytes)
    rcases moves_of_ok hRun with ⟨bytes, hPassed, hMoves⟩
    exact ⟨_, bytes, d, hRun, hPassed, hMoves⟩

private theorem bytes_moves
    (n : Nat)
    (c : Cursor) :
    ∃ result bytes d,
      (ReadStep.bytes n).run c = (result, d) ∧
        c.Passes bytes d ∧
        Moves c (.bytes n) result bytes.length := by
  by_cases hFew : c.remaining.length < n
  · exact moves_of_few hFew (bind_of_error (bytes_of_lt hFew))
  · rcases bytes_of_le (Nat.le_of_not_lt hFew) with
      ⟨d, hBytes, _⟩
    have hRun :
        (ReadStep.bytes n).run c =
          (.ok (some (.bytes (c.remaining.take n))), d) :=
      bind_of_ok hBytes
    rcases moves_of_ok hRun with ⟨bytes, hPassed, hMoves⟩
    exact ⟨_, bytes, d, hRun, hPassed, hMoves⟩

private theorem skip_moves
    (n : Nat)
    (c : Cursor) :
    ∃ result bytes d,
      (skip n).run c = (result, d) ∧ c.Passes bytes d ∧
        Moves c (skip n) result bytes.length := by
  by_cases hFew : c.remaining.length < n
  · refine moves_of_few hFew ?_
    exact bind_of_error (bind_of_error (bytes_of_lt hFew))
  · have hEnough := Nat.le_of_not_lt hFew
    rcases bytes_of_le hEnough with ⟨d, hBytes, hPasses⟩
    refine ⟨.ok none, c.remaining.take n, d, ?_, hPasses, ?_⟩
    · exact bind_of_ok (bind_of_ok hBytes)
    · rw [List.length_take_of_le hEnough]
      exact .skips hEnough

private theorem length_moves
    (c : Cursor) :
    ∃ result bytes d,
      length.run c = (result, d) ∧ c.Passes bytes d ∧
        Moves c length result bytes.length := by
  by_cases hFew : c.remaining.length < 4
  · refine moves_of_few hFew ?_
    exact
      bind_of_error
        (bind_of_error (bind_of_error (bytes_of_lt hFew)))
  · have hPrefix : c.HasPrefix _ :=
      ⟨Nat.le_of_not_lt hFew, rfl⟩
    rcases length_of_prefix hPrefix with ⟨d, hPasses, hLength⟩
    split at hLength
    · next hNegative =>
        refine ⟨_, _, d, bind_of_error hLength, hPasses, ?_⟩
        rw [List.length_take_of_le hPrefix.1]
        exact .negative (.inl rfl) hPrefix hNegative
    · have hRun :
          length.run c = (.ok (some (.length _)), d) :=
        bind_of_ok hLength
      rcases moves_of_ok hRun with ⟨bytes, hPassed, hMoves⟩
      exact ⟨_, bytes, d, hRun, hPassed, hMoves⟩

/- Behind a prefix with a length the bytes of a string are due. -/
private theorem string_of_prefix
    {n : Nat}
    (hPrefix : c.HasPrefix n) :
    ∃ d,
      c.Passes (c.remaining.take 4) d ∧
        string.run c =
          (Reader.bytes n >>= fun bs => do
            let s ←
              ofExcept
                ((Utf8.decode bs).mapError .invalidUtf8)
            return some (.string s)) d := by
  rcases length_of_prefix hPrefix with ⟨d, hPasses, hLength⟩
  rw [if_neg (by omega), Int.toNat_natCast] at hLength
  refine ⟨d, hPasses, ?_⟩
  show (Reader.string >>= _) c = _
  unfold Reader.string
  rw [bind_assoc, bind_of_ok hLength, bind_assoc]

/- A string fails in its prefix, behind it, or as no text. -/
private theorem string_moves
    (c : Cursor) :
    ∃ result bytes d,
      string.run c = (result, d) ∧ c.Passes bytes d ∧
        Moves c string result bytes.length := by
  by_cases hFew : c.remaining.length < 4
  · refine moves_of_few hFew ?_
    exact
      bind_of_error
        (bind_of_error
          (bind_of_error (bind_of_error (bytes_of_lt hFew))))
  obtain ⟨n, hPrefix⟩ : ∃ n, c.HasPrefix n :=
    ⟨_, Nat.le_of_not_lt hFew, rfl⟩
  have hFour := List.length_take_of_le hPrefix.1
  by_cases hNegative : n < 0
  · rcases length_of_prefix hPrefix with ⟨d, hPasses, hLength⟩
    rw [if_pos hNegative] at hLength
    refine ⟨_, _, d, bind_of_error (bind_of_error hLength),
      hPasses, ?_⟩
    rw [hFour]
    exact .negative (.inr rfl) hPrefix hNegative
  obtain ⟨n, rfl⟩ := Int.eq_ofNat_of_zero_le
    (Int.not_lt.mp hNegative)
  rcases string_of_prefix hPrefix with ⟨d, hPasses, hRun⟩
  have hRest : c.remaining.drop 4 = d.remaining := by
    rw [hPasses.remaining_eq, List.drop_left' hFour]
  have hLength := hPasses.length_remaining_eq
  rw [hFour] at hLength
  by_cases hShort : d.remaining.length < n
  · rw [bind_of_error (bytes_of_lt hShort), hPasses.index_eq,
      hFour] at hRun
    refine ⟨_, _, d, hRun, hPasses, ?_⟩
    rw [hFour]
    exact .tooLong hPrefix (by omega)
  have hEnough := Nat.le_of_not_lt hShort
  rcases bytes_of_le hEnough with ⟨d', hBytes, hPasses'⟩
  rw [bind_of_ok hBytes] at hRun
  cases hText : Utf8.decode (d.remaining.take n) with
  | ok s =>
      rw [hText] at hRun
      rcases moves_of_ok hRun with ⟨bytes, hPassed, hMoves⟩
      exact ⟨_, bytes, d', hRun, hPassed, hMoves⟩
  | error fault =>
      rw [hText] at hRun
      refine ⟨_, _, d', hRun, hPasses.trans hPasses', ?_⟩
      rw [List.length_append, hFour,
        List.length_take_of_le hEnough]
      exact .noText hPrefix (by omega) (hRest ▸ hText)

/- A step comes to one of its outcomes, wherever it is taken. -/
theorem run_moves
    (step : ReadStep)
    (c : Cursor) :
    ∃ bytes,
      c.Passes bytes (step.run c).2 ∧
        Moves c step (step.run c).1 bytes.length := by
  have hStep :
      ∃ result bytes d,
        step.run c = (result, d) ∧ c.Passes bytes d ∧
          Moves c step result bytes.length := by
    cases step with
    | byte => exact byte_moves c
    | tag => exact tag_moves c
    | number k => exact number_moves k c
    | length => exact length_moves c
    | string => exact string_moves c
    | bytes n => exact bytes_moves n c
    | skip n => exact skip_moves n c
  rcases hStep with ⟨result, bytes, d, hRun, hPasses, hMoves⟩
  rw [hRun]
  exact ⟨bytes, hPasses, hMoves⟩

end ReadStep

end TagWire

------------------------------------------------------------
-- Runs
------------------------------------------------------------

namespace TagWire

namespace ReadStep

/- The cursor after some steps, failed ones among them. -/
def after
    (steps : List ReadStep)
    (c : Cursor) :
    Cursor :=
  steps.foldl (fun c step => (step.run c).2) c

/- Some steps are taken behind others. -/
theorem after_append
    (steps steps' : List ReadStep)
    (c : Cursor) :
    after (steps ++ steps') c = after steps' (after steps c) :=
  List.foldl_append

/- Steps move only forward, in the same bytes. -/
theorem passes_after
    (steps : List ReadStep)
    (c : Cursor) :
    ∃ bytes, c.Passes bytes (after steps c) := by
  induction steps generalizing c with
  | nil => exact ⟨[], .refl c⟩
  | cons step rest ih =>
      rcases run_moves step c with ⟨bytes, hPasses, _⟩
      rcases ih (step.run c).2 with ⟨bytes', hPasses'⟩
      exact ⟨bytes ++ bytes', hPasses.trans hPasses'⟩

/-
  All along a run of steps that may fail, the cursor stays
  within the bytes and never moves back, and what remains are
  the bytes from its index on. Every step moves it as far as
  the outcome of that step says.
-/
theorem moves_after
    (data : List UInt8)
    (before : List ReadStep)
    (step : ReadStep)
    (later : List ReadStep) :
    let c := after before (Cursor.start data)
    let d := after (before ++ [step]) (Cursor.start data)
    let c' := after (before ++ step :: later) (Cursor.start data)
    c.data = data ∧
      c.index ≤ data.length ∧
      c.remaining = data.drop c.index ∧
      d.index ≤ c'.index ∧
      ∃ n,
        Moves c step (step.run c).1 n ∧
          d.index = c.index + n := by
  intro c d c'
  have hStep : d = (step.run c).2 := after_append before [step] _
  have hLater : c' = after later d := by
    rw [hStep]
    exact after_append before (step :: later) _
  rcases passes_after before (Cursor.start data) with
    ⟨passed, hPassed⟩
  have hData : c.data = data := hPassed.data_eq
  have hBound := c.index_le
  rw [hData] at hBound
  have hRemaining : c.remaining = data.drop c.index :=
    congrArg (List.drop c.index) hData
  rcases passes_after later d with ⟨bytes', hPasses'⟩
  have hForward : d.index ≤ c'.index := by
    rw [hLater, hPasses'.index_eq]
    exact Nat.le_add_right _ _
  rcases run_moves step c with ⟨bytes, hPasses, hMoves⟩
  refine
    ⟨hData, hBound, hRemaining, hForward, bytes.length, hMoves,
      ?_⟩
  rw [hStep, hPasses.index_eq]

end ReadStep

end TagWire
