import TagWire.Decimal.Shortest
import TagWire.Wire.Float

/-
  This file defines how decimals are written: with a point
  among the digits, or with an exponent behind them.

  Key definitions include:
    * `DecimalLayout`
    * `DecimalLayout.write`
    * `DecimalLayout.writeFinite`
-/

namespace TagWire

/- The choices that a written form of floats makes. -/
structure DecimalLayout where
  /- The least exponent written with a point. -/
  leastPlain : Int
  /- The least exponent above that has an exponent again. -/
  leastLarge : Int
  /- Whether an exponent that is not negative has a sign. -/
  plusSign : Bool
  /- Where a number between two shortest decimals goes. -/
  tie : Tie
deriving DecidableEq, Repr

namespace DecimalLayout

/-
  Digits with a point among them. There is a digit on each
  side of the point at least.
-/
def writePlain
    (d : Decimal) :
    List Char :=
  if d.exponent < 0 then
    '0' :: '.' ::
      (List.replicate ((-d.exponent).toNat - 1) '0' ++ d.digits)
  else
    let width := d.exponent.toNat + 1
    let whole := d.digits.take width
    let part := d.digits.drop width
    whole ++ List.replicate (width - whole.length) '0' ++
      '.' :: (if part.isEmpty then ['0'] else part)

/- Digits with an exponent behind them. -/
def writeScientific
    (plusSign : Bool)
    (d : Decimal) :
    List Char :=
  let mantissa :=
    match d.digits with
    | [] => []
    | [c] => [c]
    | c :: rest => c :: '.' :: rest
  let sign :=
    if d.exponent < 0 then ['-']
    else if plusSign then ['+']
    else []
  mantissa ++ 'e' :: sign ++ Nat.toDigits 10 d.exponent.natAbs

/- A positive decimal in some layout. -/
def write
    (layout : DecimalLayout)
    (d : Decimal) :
    List Char :=
  if layout.leastPlain ≤ d.exponent ∧
      d.exponent < layout.leastLarge then
    writePlain d
  else
    writeScientific layout.plusSign d

/- A finite float in some layout, with its sign. -/
def writeFinite
    (layout : DecimalLayout)
    (k : FloatKind)
    (negative : Bool)
    (mantissa : Nat)
    (exponent : Int) :
    String :=
  let sign := if negative then ['-'] else []
  let body :=
    if mantissa = 0 then
      ['0', '.', '0']
    else
      layout.write
        ((BinaryInterval.ofParts k.precision k.leastExponent
          mantissa exponent).shortest layout.tie)
  String.ofList (sign ++ body)

end DecimalLayout

end TagWire
