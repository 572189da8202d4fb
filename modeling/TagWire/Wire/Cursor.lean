import TagWire.Wire.Error

/-
  This file defines a place in a byte string and the actions
  that read from there on. An action that fails still moves
  the cursor as far as it got.

  Key definitions include:
    * `Cursor`
    * `Cursor.remaining`
    * `Reader`
    * `Reader.bytes`
    * `Reader.byte`
    * `Reader.tag`
    * `Reader.times`
    * `Reader.mapError`

  Correctness is proven by:
    * `Reader.times_succ`
-/

namespace TagWire

------------------------------------------------------------
-- Cursors
------------------------------------------------------------

/- A byte string and how much of it has been read. -/
structure Cursor where
  data : List UInt8
  index : Nat
  index_le : index ≤ data.length

namespace Cursor

/- The start of a byte string. -/
def start
    (data : List UInt8) :
    Cursor :=
  ⟨data, 0, Nat.zero_le _⟩

/- The bytes still to be read. -/
def remaining
    (c : Cursor) :
    List UInt8 :=
  c.data.drop c.index

/- Whether everything has been read. -/
def atEnd
    (c : Cursor) :
    Bool :=
  c.data.length ≤ c.index

/- At the start everything remains. -/
@[simp]
theorem remaining_start
    (data : List UInt8) :
    (start data).remaining = data := by
  rfl

/- What remains is what has not been read. -/
theorem length_remaining
    (c : Cursor) :
    c.remaining.length = c.data.length - c.index := by
  simp [remaining]

end Cursor

------------------------------------------------------------
-- Readers
------------------------------------------------------------

/-
  An action on a cursor that gives a value or an error, and
  leaves a cursor in both cases.
-/
def Reader (ε α : Type) : Type :=
  Cursor → Except ε α × Cursor

namespace Reader

variable {ε ε' α β : Type}

instance : Monad (Reader ε) where
  pure a := fun c => (.ok a, c)
  bind r f := fun c =>
    match r c with
    | (.ok a, c') => f a c'
    | (.error e, c') => (.error e, c')

instance : LawfulMonad (Reader ε) :=
  LawfulMonad.mk'
    (Reader ε)
    (fun r => by
      funext c
      simp only [Functor.map]
      rcases r c with ⟨_ | _, _⟩ <;> rfl)
    (fun _ _ => rfl)
    (fun r f g => by
      funext c
      simp only [bind]
      rcases r c with ⟨_ | _, _⟩ <;> rfl)

/- Fail where the cursor stands. -/
def fail
    (e : ε) :
    Reader ε α :=
  fun c => (.error e, c)

/- Take over a result that needs no reading. -/
def ofExcept
    (r : Except ε α) :
    Reader ε α :=
  fun c => (r, c)

/- Report the errors of an action in another form. -/
def mapError
    (f : ε → ε')
    (r : Reader ε α) :
    Reader ε' α :=
  fun c =>
    match r c with
    | (.ok a, c') => (.ok a, c')
    | (.error e, c') => (.error (f e), c')

/- Look at the bytes ahead without moving. -/
def lookahead : Reader ε (List UInt8) :=
  fun c => (.ok c.remaining, c)

/- Run an action a number of times, with values read before. -/
def collect
    (r : Reader ε α) :
    Nat → List α → Reader ε (List α)
| 0, before => pure before.reverse
| n + 1, before => fun c =>
    match r c with
    | (.ok a, c') => collect r n (a :: before) c'
    | (.error e, c') => (.error e, c')

/- Run an action a number of times. -/
def times
    (r : Reader ε α)
    (n : Nat) :
    Reader ε (List α) :=
  collect r n []

/- The values read before stand in front. -/
theorem collect_eq
    (r : Reader ε α)
    (n : Nat)
    (before : List α) :
    collect r n before =
      (fun l => before.reverse ++ l) <$> times r n := by
  have hAppend :
      ∀ (n : Nat) (front back : List α),
        collect r n (back ++ front) =
          (fun l => front.reverse ++ l) <$>
            collect r n back := by
    intro n
    induction n with
    | zero =>
        intro front back
        funext c
        simp [collect, Functor.map, pure]
        rfl
    | succ n ih =>
        intro front back
        funext c
        have hStep := fun a => ih front (a :: back)
        simp only [List.cons_append] at hStep
        simp only [collect, Functor.map]
        rcases r c with ⟨e | a, c'⟩
        · rfl
        · simp only [hStep a]
          rfl
  have hBefore := hAppend n before []
  simpa [times] using hBefore

/- Running an action no times gives no values. -/
theorem times_zero
    (r : Reader ε α) :
    times r 0 = pure [] := by
  rfl

/- Running an action again gives one value more. -/
theorem times_succ
    (r : Reader ε α)
    (n : Nat) :
    times r (n + 1) = do
      let a ← r
      let rest ← times r n
      return a :: rest := by
  funext c
  simp only [times, collect, bind]
  rcases r c with ⟨e | a, c'⟩
  · rfl
  · simp only [collect_eq r n [a]]
    rfl

/- The value of an action from the start of some bytes. -/
def eval
    (r : Reader ε α)
    (data : List UInt8) :
    Except ε α :=
  (r (Cursor.start data)).1

/- Read the given number of bytes. -/
def bytes
    (n : Nat) :
    Reader WireError (List UInt8) :=
  fun c =>
    if h : c.index + n ≤ c.data.length then
      (.ok (c.remaining.take n), ⟨c.data, c.index + n, h⟩)
    else
      (.error (.unexpectedEnd c.index n), c)

/- Move past the given number of bytes. -/
def skip
    (n : Nat) :
    Reader WireError Unit := do
  let _ ← bytes n
  return ()

/- Read one byte. -/
def byte : Reader WireError UInt8 :=
  fun c =>
    match h : c.data[c.index]? with
    | some b =>
        (.ok b,
          ⟨c.data, c.index + 1,
            (List.getElem?_eq_some_iff.mp h).1⟩)
    | none => (.error (.unexpectedEnd c.index 1), c)

/-
  Read a field tag. At the end of the input there is none,
  which is no error: it is a tag that no field has.
-/
def tag : Reader ε (Option UInt8) :=
  fun c =>
    match byte c with
    | (.ok b, c') => (.ok (some b), c')
    | (.error _, c') => (.ok none, c')

end Reader

end TagWire
