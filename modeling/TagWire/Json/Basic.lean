import TagWire.Decimal.Layout
import TagWire.Text.Quoted

/-
  This file defines JSON values and their two written forms,
  on one line and indented.

  Key definitions include:
    * `Json`
    * `Json.ofFloat`
    * `Json.compact`
    * `Json.pretty`
-/

namespace TagWire

open Text

/-
  A JSON value. Numbers are whole or floats of eight bytes.
  The members of an object stand in the order written.
-/
inductive Json where
| null
| bool (b : Bool)
| int (n : Int)
| float (w : FloatKind.float64.Word)
| string (text : String)
| array (elements : List Json)
| object (members : List (String × Json))
deriving Repr

namespace Json

/- A float, or null in place of what JSON cannot say. -/
def ofFloat
    (w : FloatKind.float64.Word) :
    Json :=
  match FloatKind.float64.decode w with
  | .finite .. => float w
  | _ => null

/-
  Floats in JSON have a point for exponents from -5 to 15. An
  exponent has its sign, and ties go to the even digit.
-/
def floatLayout : DecimalLayout :=
  ⟨-5, 16, true, .toEven⟩

/- How a float is written. -/
def writeFloat
    (w : FloatKind.float64.Word) :
    String :=
  match FloatKind.float64.decode w with
  | .finite negative mantissa exponent =>
      floatLayout.writeFinite .float64 negative mantissa exponent
  | _ => "null"

------------------------------------------------------------
-- One Line
------------------------------------------------------------

/- Texts with a separator between them. -/
def join
    (separator : String)
    (parts : List String) :
    String :=
  separator.intercalate parts

mutual

/- A value on one line, without blanks. -/
def compact : Json → String
| null => "null"
| bool true => "true"
| bool false => "false"
| int n => toString n
| float w => writeFloat w
| string text => quote text
| array elements =>
    "[" ++ join "," (compactElements elements) ++ "]"
| object members =>
    leftBrace ++ join "," (compactMembers members) ++
      rightBrace

/- The elements of an array, each on one line. -/
def compactElements : List Json → List String
| [] => []
| j :: rest => j.compact :: compactElements rest

/- The members of an object, each on one line. -/
def compactMembers : List (String × Json) → List String
| [] => []
| (key, j) :: rest =>
    (quote key ++ ":" ++ j.compact) :: compactMembers rest

end

------------------------------------------------------------
-- Indented
------------------------------------------------------------

/- The start of a line at some depth, by two blanks each. -/
def newline
    (depth : Nat) :
    String :=
  String.ofList ('\n' :: List.replicate (2 * depth) ' ')

/- Lines between brackets, or the brackets if there is none. -/
def block
    (opening closing : String)
    (depth : Nat)
    (lines : List String) :
    String :=
  if lines.isEmpty then
    opening ++ closing
  else
    opening ++ newline (depth + 1) ++
      join ("," ++ newline (depth + 1)) lines ++
      newline depth ++ closing

mutual

/- A value over several lines, begun at some depth. -/
def prettyAt
    (depth : Nat) :
    Json → String
| array elements =>
    block "[" "]" depth (prettyElements (depth + 1) elements)
| object members =>
    block leftBrace rightBrace depth
      (prettyMembers (depth + 1) members)
| null => "null"
| bool true => "true"
| bool false => "false"
| int n => toString n
| float w => writeFloat w
| string text => quote text

/- The elements of an array at some depth. -/
def prettyElements
    (depth : Nat) :
    List Json → List String
| [] => []
| j :: rest => j.prettyAt depth :: prettyElements depth rest

/- The members of an object at some depth. -/
def prettyMembers
    (depth : Nat) :
    List (String × Json) → List String
| [] => []
| (key, j) :: rest =>
    (quote key ++ ": " ++ j.prettyAt depth) ::
      prettyMembers depth rest

end

/- A value over several lines. -/
def pretty
    (j : Json) :
    String :=
  j.prettyAt 0

end Json

end TagWire
