import TagWire.Decimal.Layout
import TagWire.Wire.Float

/-
  This file defines how a diagnostic shows numbers.

  Key definitions include:
    * `FloatKind.inspect`
    * `NumKind.inspect`
-/

namespace TagWire

namespace FloatKind

/-
  A shown float has a point for exponents from -4 to 15. An
  exponent has no plus sign, and ties go up.
-/
def inspectLayout : DecimalLayout :=
  ⟨-4, 16, false, .up⟩

/- A float as a diagnostic shows it. -/
def inspect
    (k : FloatKind)
    (w : k.Word) :
    String :=
  match k.decode w with
  | .nan => "NaN"
  | .infinite negative => if negative then "-inf" else "inf"
  | .finite negative mantissa exponent =>
      inspectLayout.writeFinite k negative mantissa exponent

end FloatKind

namespace NumKind

/- A number as a diagnostic shows it. -/
def inspect :
    (k : NumKind) → k.Word → String
| int k, w => toString (k.value w)
| float k, w => k.inspect w

end NumKind

end TagWire
