/-
  This file defines runs of code points at a regular distance,
  the rows of which the character tables are made.

  Key definitions include:
    * `CodeRange`
    * `CodeRange.contains`
    * `CodeRange.covers`
-/

namespace TagWire

namespace Text

/-
  The code points `first`, `first + step`, and so on up to
  `last`.
-/
structure CodeRange where
  first : Nat
  last : Nat
  step : Nat
deriving DecidableEq, Repr

namespace CodeRange

/- Whether a code point is one of the run. -/
def contains
    (r : CodeRange)
    (n : Nat) :
    Bool :=
  r.first ≤ n && n ≤ r.last && (n - r.first) % r.step == 0

/- Whether some run of a table holds a code point. -/
def covers
    (table : List CodeRange)
    (n : Nat) :
    Bool :=
  table.any (·.contains n)

end CodeRange

end Text

end TagWire
