/-
  This file defines the shortest decimal number that reads
  back as a given binary one. It tries one digit, then two,
  and so on, and takes the first decimal that lies in the
  interval of the real numbers nearest to the binary one.

  Key definitions include:
    * `Decimal`
    * `BinaryInterval`
    * `BinaryInterval.ofParts`
    * `BinaryInterval.onGrid?`
    * `BinaryInterval.shortest`
-/

namespace TagWire

/-
  The decimal number with the given digits, of which the first
  counts ten to the power `exponent`.
-/
structure Decimal where
  digits : List Char
  exponent : Int
deriving DecidableEq, Repr

namespace Decimal

/- The number of decimal digits of a number. -/
def digitCount
    (n : Nat) :
    Nat :=
  (Nat.toDigits 10 n).length

/-
  The decimal `n` times ten to the power `scale`, without the
  zeros at its end.
-/
def ofScaled
    (n : Nat)
    (scale : Int) :
    Decimal :=
  let digits := Nat.toDigits 10 n
  ⟨(digits.reverse.dropWhile (· == '0')).reverse,
    scale + digits.length - 1⟩

end Decimal

/- Where a number exactly between two decimals goes. -/
inductive Tie where
| toEven
| up
deriving DecidableEq, Repr

/-
  A positive binary number and the interval of the reals for
  which it is the nearest one, all three over one divisor. The
  ends belong to the interval if the mantissa is even.
-/
structure BinaryInterval where
  low : Nat
  value : Nat
  high : Nat
  divisor : Nat
  closed : Bool
deriving DecidableEq, Repr

namespace BinaryInterval

/-
  The interval of a mantissa times a power of two. It ends in
  the middle to the next number on both sides; below a power
  of two that one is only half as far, unless the exponent is
  the least.
-/
def ofParts
    (precision : Nat)
    (leastExponent : Int)
    (mantissa : Nat)
    (exponent : Int) :
    BinaryInterval :=
  let narrow :=
    mantissa = Nat.pow 2 (precision - 1) ∧
      leastExponent < exponent
  let factor := Nat.pow 2 (exponent - 2).toNat
  {
    low := (4 * mantissa - (if narrow then 1 else 2)) * factor
    value := 4 * mantissa * factor
    high := (4 * mantissa + 2) * factor
    divisor := Nat.pow 2 (2 - exponent).toNat
    closed := mantissa % 2 == 0
  }

/- Whether a number over the same divisor lies inside. -/
def contains
    (b : BinaryInterval)
    (n : Nat) :
    Bool :=
  if b.closed then
    b.low ≤ n && n ≤ b.high
  else
    b.low < n && n < b.high

/- The power of ten that the first digit of a number counts. -/
def magnitude
    (b : BinaryInterval) :
    Int :=
  if b.divisor ≤ b.value then
    (Decimal.digitCount (b.value / b.divisor) : Int) - 1
  else
    -(Decimal.digitCount
      ((b.divisor + b.value - 1) / b.value - 1) : Int)

/-
  The multiple of ten to the power `scale` that is nearest to
  the number, of the two around it that lie inside.
-/
def onGrid?
    (b : BinaryInterval)
    (tie : Tie)
    (scale : Int) :
    Option Nat :=
  let unit := b.divisor * Nat.pow 10 scale.toNat
  let blow := Nat.pow 10 (-scale).toNat
  let fine : BinaryInterval :=
    { b with
      low := b.low * blow
      value := b.value * blow
      high := b.high * blow }
  let below := fine.value / unit
  let rest := fine.value % unit
  match fine.contains (below * unit),
      fine.contains ((below + 1) * unit) with
  | false, false => none
  | true, false => some below
  | false, true => some (below + 1)
  | true, true =>
      if 2 * rest < unit then
        some below
      else if unit < 2 * rest then
        some (below + 1)
      else
        match tie with
        | .toEven =>
            some (if below % 2 = 0 then below else below + 1)
        | .up => some (below + 1)

/- The greatest number of digits that are ever needed. -/
def maxDigits : Nat :=
  17

/- The decimal with the fewest digits that lies inside. -/
def shortest
    (b : BinaryInterval)
    (tie : Tie) :
    Decimal :=
  let scale (count : Nat) : Int := b.magnitude + 1 - count
  let found :=
    (List.range maxDigits).findSome? fun i =>
      (b.onGrid? tie (scale (i + 1))).map fun n =>
        Decimal.ofScaled n (scale (i + 1))
  found.getD
    (Decimal.ofScaled
      (b.value * Nat.pow 10 (-scale maxDigits).toNat /
        (b.divisor * Nat.pow 10 (scale maxDigits).toNat))
      (scale maxDigits))

end BinaryInterval

end TagWire
