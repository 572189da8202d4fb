import TagWire.Text.CodeRange

/-
  This file defines the characters that separate words in a
  schema text.

  Key definitions include:
    * `blankRanges`
    * `isBlank`
-/

namespace TagWire

namespace Text

/- The characters with the Unicode property White_Space. -/
def blankRanges : List CodeRange :=
  [
    ⟨0x0009, 0x000D, 1⟩, ⟨0x0020, 0x0020, 1⟩, ⟨0x0085, 0x0085, 1⟩,
    ⟨0x00A0, 0x00A0, 1⟩, ⟨0x1680, 0x1680, 1⟩, ⟨0x2000, 0x200A, 1⟩,
    ⟨0x2028, 0x2029, 1⟩, ⟨0x202F, 0x202F, 1⟩, ⟨0x205F, 0x205F, 1⟩,
    ⟨0x3000, 0x3000, 1⟩
  ]

/- A character that may stand between two words. -/
def isBlank
    (c : Char) :
    Bool :=
  CodeRange.covers blankRanges c.toNat

/- A newline separates words like any other blank. -/
theorem isBlank_newline :
    isBlank '\n' = true := by
  decide

end Text

end TagWire
