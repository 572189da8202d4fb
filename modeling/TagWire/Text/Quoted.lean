import TagWire.Text.Printable

/-
  This file defines the two quoted forms of a text. Both put
  the text between double quotes and escape what could not
  stand there; they differ in which characters they escape
  and how.

  Braces have names here, since a plain text cannot hold one.

  Key definitions include:
    * `leftBrace`, `rightBrace` and `inBraces`
    * `shortEscape?`
    * `quote`
    * `inspect`
-/

namespace TagWire

namespace Text

/- The digits of a number in base sixteen, in lower case. -/
def hexDigits
    (n : Nat) :
    List Char :=
  Nat.toDigits 16 n

------------------------------------------------------------
-- Braces
------------------------------------------------------------

/- The brace that opens. -/
def leftBrace : String :=
  "\x7b"

/- The brace that closes. -/
def rightBrace : String :=
  "\x7d"

/- A text between braces, on one line. -/
def inBraces
    (inner : String) :
    String :=
  leftBrace ++ " " ++ inner ++ " " ++ rightBrace

------------------------------------------------------------
-- JSON Strings
------------------------------------------------------------

/-
  The letter that stands for a character after a backslash in
  a JSON string, for the characters that have one.
-/
def shortEscape?
    (c : Char) :
    Option Char :=
  match c with
  | '"' => some '"'
  | '\\' => some '\\'
  | '\x08' => some 'b'
  | '\x0c' => some 'f'
  | '\n' => some 'n'
  | '\r' => some 'r'
  | '\t' => some 't'
  | _ => none

/-
  A character inside a JSON string. Controls without a letter
  of their own are written by number, in four digits.
-/
def quoteChar
    (c : Char) :
    List Char :=
  match shortEscape? c with
  | some letter => ['\\', letter]
  | none =>
      if c.toNat < 0x20 then
        ['\\', 'u', '0', '0', Nat.digitChar (c.toNat / 16),
          Nat.digitChar (c.toNat % 16)]
      else
        [c]

/- A text as a JSON string. -/
def quote
    (s : String) :
    String :=
  String.ofList
    ('"' :: s.toList.flatMap quoteChar ++ ['"'])

------------------------------------------------------------
-- Inspected Strings
------------------------------------------------------------

/-
  A character inside an inspected string. What cannot be seen
  by itself is written as its number between braces.
-/
def inspectChar
    (c : Char) :
    List Char :=
  match c with
  | '"' => ['\\', '"']
  | '\\' => ['\\', '\\']
  | '\n' => ['\\', 'n']
  | '\r' => ['\\', 'r']
  | '\t' => ['\\', 't']
  | '\x00' => ['\\', '0']
  | c =>
      if isPrintable c then
        [c]
      else
        ['\\', 'u', '\x7b'] ++ hexDigits c.toNat ++ ['\x7d']

/- A text as a diagnostic shows it. -/
def inspect
    (s : String) :
    String :=
  String.ofList
    ('"' :: s.toList.flatMap inspectChar ++ ['"'])

end Text

end TagWire
