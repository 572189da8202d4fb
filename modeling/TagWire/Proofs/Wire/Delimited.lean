import TagWire.Proofs.Wire.Passing

/-
  Readers whose values are decided by the bytes they pass.
  With other bytes behind these the value is the same, and
  with some of them missing the reader runs out of bytes.
  There is no third way: a part of what a value was read from
  is never read as another value.

  Main declarations:
    * `prefix_append_cases`
    * `Reader.RunsOut`
    * `Reader.Delimited`
    * `Reader.Delimited.bind`
    * `Reader.Delimited.times`
    * `Reader.delimited_number`
    * `Reader.delimited_length`
    * `Reader.delimited_string`
-/

------------------------------------------------------------
-- Beginnings
------------------------------------------------------------

namespace TagWire

/-
  A beginning of two parts, and not all of them, is not all of
  the first one, or has it all and not all of the second.
-/
theorem prefix_append_cases
    {α : Type}
    {p front back : List α}
    (hPrefix : p <+: front ++ back)
    (hStrict : p ≠ front ++ back) :
    (p <+: front ∧ p ≠ front) ∨
      ∃ q, q <+: back ∧ q ≠ back ∧ p = front ++ q := by
  by_cases hEnough : front <+: p
  · rcases hEnough with ⟨q, rfl⟩
    refine Or.inr ⟨q, ?_, ?_, rfl⟩
    · exact (List.prefix_append_right_inj front).mp hPrefix
    · exact fun hSame => hStrict (congrArg (front ++ ·) hSame)
  · refine Or.inl ⟨?_, ?_⟩
    · rcases
          List.prefix_or_prefix_of_prefix hPrefix
            (List.prefix_append front back) with
        h | h
      · exact h
      · exact absurd h hEnough
    · exact fun hSame =>
        hEnough (hSame ▸ List.prefix_refl _)

end TagWire

------------------------------------------------------------
-- Running Out
------------------------------------------------------------

namespace TagWire

namespace Reader

variable {ε ε' α β : Type}

/-
  An action fails as it needs more bytes than there are. The
  error says where it needed them, and how many.
-/
def RunsOut
    (ends : Nat → Nat → ε)
    (r : Reader ε α)
    (c : Cursor) : Prop :=
  ∃ offset needed,
    (r c).1 = .error (ends offset needed) ∧
      offset ≤ c.data.length ∧
      c.data.length < offset + needed

variable {ends : Nat → Nat → ε}
variable {c d : Cursor}

/- An action with the outcome of one that runs out does too. -/
theorem RunsOut.of_eq
    {r r' : Reader ε α}
    (h : RunsOut ends r d)
    (hSame : (r' c).1 = (r d).1)
    (hData : d.data = c.data) :
    RunsOut ends r' c := by
  rcases h with ⟨offset, needed, hError, hBounds⟩
  rw [hData] at hBounds
  exact ⟨offset, needed, hSame.trans hError, hBounds⟩

/- What runs out first runs out as a part of a sequence. -/
theorem RunsOut.bind_left
    {r : Reader ε α}
    {f : α → Reader ε β}
    (h : RunsOut ends r c) :
    RunsOut ends (r >>= f) c := by
  rcases h with ⟨offset, needed, hError, hBounds⟩
  refine ⟨offset, needed, ?_, hBounds⟩
  simp only [bind]
  rcases hRun : r c with ⟨e | a, d⟩
  · rw [hRun] at hError
    cases hError
    rfl
  · rw [hRun] at hError
    cases hError

/- What runs out behind a success runs out with it. -/
theorem RunsOut.bind_right
    {r : Reader ε α}
    {f : α → Reader ε β}
    {a : α}
    (hRun : r c = (.ok a, d))
    (hData : d.data = c.data)
    (h : RunsOut ends (f a) d) :
    RunsOut ends (r >>= f) c :=
  h.of_eq (by rw [bind_of_ok hRun]) hData

/- The error of running out is renamed as the others are. -/
theorem RunsOut.mapError
    {f : ε → ε'}
    {r : Reader ε α}
    (h : RunsOut ends r c) :
    RunsOut (fun offset needed => f (ends offset needed))
      (mapError f r) c := by
  rcases h with ⟨offset, needed, hError, hBounds⟩
  refine ⟨offset, needed, ?_, hBounds⟩
  unfold Reader.mapError
  rcases hRun : r c with ⟨e | a, d⟩
  · rw [hRun] at hError
    cases hError
    rfl
  · rw [hRun] at hError
    cases hError

end Reader

end TagWire

------------------------------------------------------------
-- Delimited Readers
------------------------------------------------------------

namespace TagWire

namespace Reader

variable {ε ε' α β : Type}

/-
  A reader is delimited when the bytes that it passes decide
  about its value: it reads it from them wherever they stand,
  and from none of their beginnings.
-/
structure Delimited
    (ends : Nat → Nat → ε)
    (r : Reader ε α) : Prop where
  forward : Forward r
  extend :
    ∀ {c c' : Cursor} {a : α} {bytes : List UInt8},
      r c = (.ok a, c') → c.Passes bytes c' →
        ∀ {d : Cursor} {rest : List UInt8},
          d.remaining = bytes ++ rest →
            ∃ d', r d = (.ok a, d') ∧ d.Passes bytes d'
  truncate :
    ∀ {c c' : Cursor} {a : α} {bytes : List UInt8},
      r c = (.ok a, c') → c.Passes bytes c' →
        ∀ {d : Cursor},
          d.remaining <+: bytes → d.remaining ≠ bytes →
            RunsOut ends r d

variable {ends : Nat → Nat → ε}

/- A reader that passes nothing has nothing to run out of. -/
theorem delimited_ofExcept
    (result : Except ε α) :
    Delimited ends (ofExcept result) where
  forward := forward_ofExcept result
  extend := by
    intro c c' a bytes hRun hPasses d rest hRemaining
    rcases ofExcept_eq_ok_iff.mp hRun with ⟨hResult, rfl⟩
    obtain rfl : bytes = [] :=
      List.append_left_eq_self.mp hPasses.remaining_eq.symm
    exact ⟨d, ofExcept_eq_ok_iff.mpr ⟨hResult, rfl⟩, .refl d⟩
  truncate := by
    intro c c' a bytes hRun hPasses d hPrefix hStrict
    rcases ofExcept_eq_ok_iff.mp hRun with ⟨_, rfl⟩
    obtain rfl : bytes = [] :=
      List.append_left_eq_self.mp hPasses.remaining_eq.symm
    exact absurd (List.prefix_nil.mp hPrefix) hStrict

theorem delimited_pure
    (a : α) :
    Delimited ends (pure a : Reader ε α) :=
  delimited_ofExcept (.ok a)

theorem delimited_fail
    (e : ε) :
    Delimited ends (fail e : Reader ε α) :=
  delimited_ofExcept (.error e)

/-
  A sequence of delimited readers is delimited. A beginning of
  what it passes ends in what the first part passes, or holds
  all of it and ends in what the second one passes.
-/
theorem Delimited.bind
    {r : Reader ε α}
    {f : α → Reader ε β}
    (hr : Delimited ends r)
    (hf : ∀ a, Delimited ends (f a)) :
    Delimited ends (r >>= f) where
  forward := forward_bind hr.forward fun a => (hf a).forward
  extend := by
    intro c c' b bytes hRun hPasses d rest hRemaining
    rcases bind_eq_ok_iff.mp hRun with
      ⟨a, e, hFirst, hSecond⟩
    rcases hr.forward c a e hFirst with ⟨front, hFront⟩
    rcases (hf a).forward e b c' hSecond with ⟨back, hBack⟩
    obtain rfl : bytes = front ++ back :=
      List.append_cancel_right
        (hPasses.remaining_eq.symm.trans
          (hFront.trans hBack).remaining_eq)
    rw [List.append_assoc] at hRemaining
    rcases hr.extend hFirst hFront hRemaining with
      ⟨e', hFirst', hFront'⟩
    have hMiddle : e'.remaining = back ++ rest :=
      List.append_cancel_left
        (hFront'.remaining_eq.symm.trans hRemaining)
    rcases (hf a).extend hSecond hBack hMiddle with
      ⟨d', hSecond', hBack'⟩
    exact ⟨d', bind_eq_ok_iff.mpr ⟨a, e', hFirst', hSecond'⟩,
      hFront'.trans hBack'⟩
  truncate := by
    intro c c' b bytes hRun hPasses d hPrefix hStrict
    rcases bind_eq_ok_iff.mp hRun with
      ⟨a, e, hFirst, hSecond⟩
    rcases hr.forward c a e hFirst with ⟨front, hFront⟩
    rcases (hf a).forward e b c' hSecond with ⟨back, hBack⟩
    obtain rfl : bytes = front ++ back :=
      List.append_cancel_right
        (hPasses.remaining_eq.symm.trans
          (hFront.trans hBack).remaining_eq)
    rcases prefix_append_cases hPrefix hStrict with
      ⟨hShort, hNe⟩ | ⟨part, hShort, hNe, hRemaining⟩
    · exact (hr.truncate hFirst hFront hShort hNe).bind_left
    · rcases hr.extend hFirst hFront hRemaining with
        ⟨e', hFirst', hFront'⟩
      obtain rfl : part = e'.remaining :=
        List.append_cancel_left
          (hRemaining.symm.trans hFront'.remaining_eq)
      exact RunsOut.bind_right hFirst' hFront'.data_eq
        ((hf a).truncate hSecond hBack hShort hNe)

theorem Delimited.mapError
    {f : ε → ε'}
    {r : Reader ε α}
    (hr : Delimited ends r) :
    Delimited (fun offset needed => f (ends offset needed))
      (mapError f r) where
  forward := forward_mapError hr.forward
  extend := by
    intro c c' a bytes hRun hPasses d rest hRemaining
    rcases
        hr.extend (mapError_eq_ok_iff.mp hRun) hPasses
          hRemaining with
      ⟨d', hRun', hPasses'⟩
    exact ⟨d', mapError_eq_ok_iff.mpr hRun', hPasses'⟩
  truncate := by
    intro c c' a bytes hRun hPasses d hPrefix hStrict
    exact
      (hr.truncate (mapError_eq_ok_iff.mp hRun) hPasses
        hPrefix hStrict).mapError

/- Repetition is delimited if each round is. -/
theorem Delimited.times
    {r : Reader ε α}
    (hr : Delimited ends r)
    (n : Nat) :
    Delimited ends (times r n) := by
  induction n with
  | zero => exact delimited_pure []
  | succ n ih =>
      rw [times_succ]
      exact hr.bind fun a =>
        ih.bind fun rest => delimited_pure _

end Reader

end TagWire

------------------------------------------------------------
-- Readers of Items
------------------------------------------------------------

namespace TagWire

namespace Reader

/- A number of bytes is there, or too few of them are. -/
theorem delimited_bytes
    (n : Nat) :
    Delimited WireError.unexpectedEnd (bytes n) where
  forward := by
    intro c bs c' hRun
    exact ⟨bs, (bytes_eq_ok_iff.mp hRun).2⟩
  extend := by
    intro c c' bs passed hRun hPasses d rest hRemaining
    rcases bytes_eq_ok_iff.mp hRun with ⟨hLength, hPasses'⟩
    obtain rfl : passed = bs :=
      List.append_cancel_right
        (hPasses.remaining_eq.symm.trans
          hPasses'.remaining_eq)
    rcases Cursor.exists_passes hRemaining with
      ⟨d', hPassed, _⟩
    exact ⟨d', bytes_eq_ok_iff.mpr ⟨hLength, hPassed⟩, hPassed⟩
  truncate := by
    intro c c' bs passed hRun hPasses d hPrefix hStrict
    rcases bytes_eq_ok_iff.mp hRun with ⟨hLength, hPasses'⟩
    obtain rfl : passed = bs :=
      List.append_cancel_right
        (hPasses.remaining_eq.symm.trans
          hPasses'.remaining_eq)
    have hFew : d.remaining.length < n := by
      rw [← hLength]
      refine Nat.lt_of_le_of_ne hPrefix.length_le ?_
      exact fun hSame => hStrict (hPrefix.eq_of_length hSame)
    rw [d.length_remaining] at hFew
    have hBound := d.index_le
    refine ⟨d.index, n, ?_, hBound, by omega⟩
    unfold bytes
    rw [dif_neg (by omega)]

theorem delimited_number
    (k : NumKind) :
    Delimited WireError.unexpectedEnd (number k) :=
  (delimited_bytes k.size).bind fun _ => delimited_pure _

theorem delimited_length :
    Delimited WireError.unexpectedEnd length := by
  refine (delimited_number _).bind fun w => ?_
  dsimp only
  split
  · exact delimited_fail _
  · exact delimited_pure _

theorem delimited_string :
    Delimited WireError.unexpectedEnd string :=
  delimited_length.bind fun n =>
    (delimited_bytes n).bind fun _ => delimited_ofExcept _

end Reader

end TagWire
