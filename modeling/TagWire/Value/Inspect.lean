import TagWire.Names
import TagWire.Text.Shown
import TagWire.Value.Basic
import TagWire.Wire.Inspect

/-
  This file defines how a diagnostic shows values and keys.

  Key definitions include:
    * `MapKey.display`
    * `MapKey.inspect`
    * `Value.inspect`
-/

namespace TagWire

open Text

namespace MapKey

/- A key as plain text. -/
def display : MapKey → String
| int kind word => toString (kind.value word)
| string text => text

/- A key with its kind. -/
def inspect : MapKey → String
| int kind word =>
    Names.firstUpper kind.name ++
      s!"({kind.value word})"
| string text => s!"String({Text.inspect text})"

end MapKey

namespace Value

mutual

/- A value as a diagnostic shows it. -/
def inspect : Value → String
| number kind word => kind.inspect word
| string text => Text.inspect text
| enum name variant => name ++ "::" ++ variant
| list elements =>
    bracketed "[" "]" (inspectElements elements)
| map entries =>
    bracketed leftBrace rightBrace (inspectEntries entries)
| message name fields =>
    name ++
      bracketed (" " ++ leftBrace) rightBrace
        (inspectFields fields)

/- The elements of a list as shown. -/
def inspectElements : List Value → List String
| [] => []
| v :: rest => v.inspect :: inspectElements rest

/- The entries of a map as shown. -/
def inspectEntries : List (MapKey × Value) → List String
| [] => []
| (key, v) :: rest =>
    (Text.inspect key.display ++ ": " ++ v.inspect) ::
      inspectEntries rest

/- The fields of a message as shown. -/
def inspectFields : List (String × Value) → List String
| [] => []
| (name, v) :: rest =>
    (name ++ ": " ++ v.inspect) :: inspectFields rest

end

end Value

end TagWire
