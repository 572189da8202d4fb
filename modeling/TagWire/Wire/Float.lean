import TagWire.Wire.Kind

/-
  This file defines the numbers that the bits of a float stand
  for, and the same number in the wider kind.

  Key definitions include:
    * `FloatValue`
    * `FloatKind.decode`
    * `FloatKind.encode`
    * `FloatKind.widen`
    * `FloatKind.isEqual`
-/

namespace TagWire

/-
  What the bits of a float stand for. A finite one is a
  mantissa times a power of two, with a sign.
-/
inductive FloatValue where
| nan
| infinite (negative : Bool)
| finite (negative : Bool) (mantissa : Nat) (exponent : Int)
deriving DecidableEq, Repr

namespace FloatKind

/- The number of binary digits of a mantissa. -/
def precision : FloatKind → Nat
| float32 => 24
| float64 => 53

/- The exponent of the least positive float. -/
def leastExponent : FloatKind → Int
| float32 => -149
| float64 => -1074

/- The number of exponent fields. The last is no number. -/
def exponentFields
    (k : FloatKind) :
    Nat :=
  Nat.pow 2 (8 * k.size - k.precision)

/- Read the sign, the exponent field and the fraction. -/
def decode
    (k : FloatKind)
    (w : k.Word) :
    FloatValue :=
  let half := Nat.pow 2 (k.precision - 1)
  let fraction := w.toNat % half
  let field := w.toNat / half % k.exponentFields
  let negative := w.msb
  if field + 1 = k.exponentFields then
    if fraction = 0 then .infinite negative else .nan
  else if field = 0 then
    .finite negative fraction k.leastExponent
  else
    .finite negative (half + fraction)
      (k.leastExponent + field - 1)

/-
  The bits of a mantissa times a power of two, for numbers
  that the kind has exactly.
-/
def encode
    (k : FloatKind)
    (negative : Bool)
    (mantissa : Nat)
    (exponent : Int) :
    k.Word :=
  let half := Nat.pow 2 (k.precision - 1)
  let sign :=
    if negative then Nat.pow 2 (8 * k.size - 1) else 0
  if mantissa = 0 then
    BitVec.ofNat _ sign
  else
    let shift := k.precision - 1 - mantissa.log2
    let field := exponent - shift - k.leastExponent + 1
    BitVec.ofNat _
      (sign + field.toNat * half +
        (mantissa * Nat.pow 2 shift - half))

/- A float in the wider kind. What is no number stays so. -/
def widen
    (w : float32.Word) :
    float64.Word :=
  match float32.decode w with
  | .nan => BitVec.ofNat _ 0x7FF8000000000000
  | .infinite false => BitVec.ofNat _ 0x7FF0000000000000
  | .infinite true => BitVec.ofNat _ 0xFFF0000000000000
  | .finite negative mantissa exponent =>
      float64.encode negative mantissa exponent

/- Whether some bits stand for no number and no infinity. -/
def isNaN
    (k : FloatKind)
    (w : k.Word) :
    Bool :=
  k.decode w == .nan

/-
  Whether two floats are equal as numbers: zeros of both signs
  are, and what is no number equals nothing.
-/
def isEqual
    (k : FloatKind)
    (v w : k.Word) :
    Bool :=
  !k.isNaN v && (v == w || (k.isZero v && k.isZero w))

end FloatKind

end TagWire
