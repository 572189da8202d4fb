import TagWire.Text.Blank
import TagWire.Wire.Kind

/-
  This file defines the words and marks of a schema text and
  how the text splits into them. Every text splits: what is
  neither blank, nor comment, nor mark is part of a word.

  Key definitions include:
    * `Position`
    * `TokenKind`
    * `Token`
    * `wordKind`
    * `Scanner`
    * `Scanner.step`
    * `tokenize`
-/

namespace TagWire

open Text

------------------------------------------------------------
-- Tokens
------------------------------------------------------------

/- A place in a text, both numbers counted from one. -/
structure Position where
  line : Nat
  column : Nat
deriving DecidableEq, Repr

namespace Position

/- The place of the first character. -/
def first : Position :=
  ⟨1, 1⟩

/- The place after a character. -/
def after
    (p : Position)
    (c : Char) :
    Position :=
  if c = '\n' then
    ⟨p.line + 1, 1⟩
  else
    ⟨p.line, p.column + 1⟩

/- The same place some lines further down. -/
def down
    (p : Position)
    (lines : Nat) :
    Position :=
  ⟨p.line + lines, p.column⟩

end Position

/- The words that open a declaration or a clause. -/
inductive Keyword where
| enum
| message
| service
| seq
| optional
| return
deriving DecidableEq, Repr

namespace Keyword

/- How a keyword is written. -/
def text : Keyword → String
| enum => "enum"
| message => "message"
| service => "service"
| seq => "seq"
| optional => "optional"
| «return» => "return"

/- All keywords. -/
def all : List Keyword :=
  [enum, message, service, seq, optional, «return»]

end Keyword

/- The marks, each of a single character. -/
inductive Mark where
| assign
| leftParen
| rightParen
| leftBracket
| rightBracket
| leftBrace
| rightBrace
| comma
| semicolon
deriving DecidableEq, Repr

namespace Mark

/- How a mark is written. -/
def char : Mark → Char
| assign => '='
| leftParen => '('
| rightParen => ')'
| leftBracket => '['
| rightBracket => ']'
| leftBrace => '\x7b'
| rightBrace => '\x7d'
| comma => ','
| semicolon => ';'

/- All marks. -/
def all : List Mark :=
  [
    assign, leftParen, rightParen, leftBracket, rightBracket,
    leftBrace, rightBrace, comma, semicolon
  ]

/- The mark that a character is. -/
def ofChar?
    (c : Char) :
    Option Mark :=
  all.find? (fun m => m.char == c)

end Mark

/- The kinds of token. -/
inductive TokenKind where
| keyword (k : Keyword)
| mark (m : Mark)
| builtin
| identifier
| number
| endOfText
deriving DecidableEq, Repr

/- A token, with the place of its first character. -/
structure Token where
  kind : TokenKind
  text : String
  position : Position
deriving DecidableEq, Repr

namespace Token

/- The same token some lines further down. -/
def down
    (t : Token)
    (lines : Nat) :
    Token :=
  { t with position := t.position.down lines }

end Token

------------------------------------------------------------
-- Words
------------------------------------------------------------

/- The names of the builtin types. -/
def builtinNames : List String :=
  ScalarKind.all.map ScalarKind.name ++ ["list", "map"]

/- Whether a character is a decimal digit. -/
def isDigit
    (c : Char) :
    Bool :=
  '0' ≤ c && c ≤ '9'

/- Whether some characters are one or more digits. -/
def isDigits
    (cs : List Char) :
    Bool :=
  !cs.isEmpty && cs.all isDigit

/- Whether a word is a number, with or without a sign. -/
def isNumber : List Char → Bool
| '+' :: cs => isDigits cs
| '-' :: cs => isDigits cs
| cs => isDigits cs

/-
  The kind of a word: the keyword it spells, else a builtin
  type, else a number, else an identifier.
-/
def wordKind
    (text : String) :
    TokenKind :=
  match Keyword.all.find? (fun k => k.text == text) with
  | some k => .keyword k
  | none =>
      if text ∈ builtinNames then
        .builtin
      else if isNumber text.toList then
        .number
      else
        .identifier

/- The token of a word. -/
def wordToken
    (word : List Char)
    (start : Position) :
    Token :=
  ⟨wordKind (String.ofList word), String.ofList word, start⟩

/- The token of a mark. -/
def markToken
    (m : Mark)
    (place : Position) :
    Token :=
  ⟨.mark m, m.char.toString, place⟩

/- The token that stands behind the last character. -/
def endToken
    (place : Position) :
    Token :=
  ⟨.endOfText, "", place⟩

------------------------------------------------------------
-- Scanning
------------------------------------------------------------

/-
  What is known between two characters: the place of the next
  one, the characters of an unfinished word with the place of
  its first, and whether a comment is open.
-/
structure Scanner where
  position : Position
  word : List Char
  wordStart : Position
  inComment : Bool
deriving DecidableEq, Repr

namespace Scanner

/- Before the first character. -/
def initial : Scanner :=
  ⟨.first, [], .first, false⟩

/- The unfinished word, if there is one, as a token. -/
def flush
    (s : Scanner) :
    List Token :=
  if s.word.isEmpty then [] else [wordToken s.word s.wordStart]

/-
  Read one character: the tokens it completes, and what is
  known after it. A comment runs up to the newline, which is
  a blank like any other.
-/
def step
    (s : Scanner)
    (c : Char) :
    List Token × Scanner :=
  let next := s.position.after c
  if s.inComment && c ≠ '\n' then
    ([], { s with position := next })
  else if c = '#' then
    (s.flush, ⟨next, [], next, true⟩)
  else
    match Mark.ofChar? c with
    | some m =>
        (s.flush ++ [markToken m s.position],
          ⟨next, [], next, false⟩)
    | none =>
        if isBlank c then
          (s.flush, ⟨next, [], next, false⟩)
        else if s.word.isEmpty then
          ([], ⟨next, [c], s.position, false⟩)
        else
          ([], ⟨next, s.word ++ [c], s.wordStart, false⟩)

/- The tokens of the characters still to come. -/
def run
    (s : Scanner) :
    List Char → List Token
| [] => s.flush ++ [endToken s.position]
| c :: cs =>
    let (tokens, s') := s.step c
    tokens ++ s'.run cs

end Scanner

/- The tokens of a text. The last one marks its end. -/
def tokenize
    (text : String) :
    List Token :=
  Scanner.initial.run text.toList

end TagWire
