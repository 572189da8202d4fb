import TagWire.Text.CaseTable

/-
  This file defines letter case for single characters. ASCII
  follows its own short rule; every other character follows
  the Unicode tables.

  Key definitions include:
    * `isUppercase`
    * `isLowercase`
    * `uppercase`
    * `lowercase`
-/

namespace TagWire

namespace Text

------------------------------------------------------------
-- Case Properties
------------------------------------------------------------

/- Whether a character is an uppercase letter. -/
def isUppercase
    (c : Char) :
    Bool :=
  if c.toNat < 0x80 then
    c.isUpper
  else
    CodeRange.covers uppercaseRanges c.toNat

/- Whether a character is a lowercase letter. -/
def isLowercase
    (c : Char) :
    Bool :=
  if c.toNat < 0x80 then
    c.isLower
  else
    CodeRange.covers lowercaseRanges c.toNat

------------------------------------------------------------
-- Case Mappings
------------------------------------------------------------

/-
  The characters a code point becomes under one case mapping:
  an expansion if the table lists one, else the character at
  the listed distance, else the character itself.
-/
def mapCase
    (expansions : List (Nat × List Nat))
    (shifts : List Shift)
    (c : Char) :
    List Char :=
  match expansions.lookup c.toNat with
  | some codes => codes.map Char.ofNat
  | none =>
      match shifts.find? (·.range.contains c.toNat) with
      | some shift =>
          [Char.ofNat (c.toNat + shift.distance).toNat]
      | none => [c]

/- The full uppercase form of a character. -/
def uppercase
    (c : Char) :
    List Char :=
  if c.toNat < 0x80 then
    [c.toUpper]
  else
    mapCase upperExpansions upperShifts c

/- The full lowercase form of a character. -/
def lowercase
    (c : Char) :
    List Char :=
  if c.toNat < 0x80 then
    [c.toLower]
  else
    mapCase lowerExpansions lowerShifts c

end Text

end TagWire
