import TagWire.Text.Case

/-
  This file defines how names of a schema become names of the
  generated code: the letter case of types and of members,
  and the escape of words that the code reserves.

  Key definitions include:
    * `Names.firstUpper`
    * `Names.snakeCase`
    * `Names.reserved`
    * `Names.escape`
    * `Names.typeIdent`
    * `Names.fieldIdent`
    * `Names.serviceIdent`
    * `Names.methodIdent`
-/

namespace TagWire

namespace Names

open Text

------------------------------------------------------------
-- Letter Case
------------------------------------------------------------

/- A name with its first character in uppercase. -/
def firstUpper
    (name : String) :
    String :=
  match name.toList with
  | [] => ""
  | c :: rest => String.ofList (uppercase c ++ rest)

/-
  Whether an uppercase letter starts a word, given its
  neighbours. It does after a character that is neither
  uppercase nor an underscore, and as the last capital of a
  run before a lowercase letter.
-/
def startsWord
    (previous next : Option Char) :
    Bool :=
  match previous with
  | none => false
  | some p =>
      if isUppercase p then
        next.any isLowercase
      else
        p != '_'

/-
  The characters of a name in snake case, given the character
  before them.
-/
def snakeChars
    (previous : Option Char) :
    List Char → List Char
| [] => []
| c :: rest =>
    if isUppercase c then
      (if startsWord previous rest.head? then ['_'] else []) ++
        lowercase c ++ snakeChars (some c) rest
    else
      c :: snakeChars (some c) rest

/-
  A name in snake case: words in lower case, with underscores
  between them. A run of capitals is one word.
-/
def snakeCase
    (name : String) :
    String :=
  String.ofList (snakeChars none name.toList)

------------------------------------------------------------
-- Reserved Words
------------------------------------------------------------

/- The words that no name of the generated code may be. -/
def reserved : List String :=
  [
    "as", "async", "await", "break", "const", "continue",
    "crate", "dyn", "else", "enum", "extern", "false", "fn",
    "for", "if", "impl", "in", "let", "loop", "match", "mod",
    "move", "mut", "pub", "ref", "return", "self", "Self",
    "static", "struct", "super", "trait", "true", "type",
    "unsafe", "use", "where", "while", "abstract", "become",
    "box", "do", "final", "macro", "override", "priv", "try",
    "typeof", "unsized", "virtual", "yield"
  ]

/- A name, with an underscore added if it is reserved. -/
def escape
    (name : String) :
    String :=
  if name ∈ reserved then name ++ "_" else name

------------------------------------------------------------
-- Generated Names
------------------------------------------------------------

/- The generated name of an enum, a message or a variant. -/
def typeIdent
    (name : String) :
    String :=
  escape name

/- The generated name of a field. -/
def fieldIdent
    (name : String) :
    String :=
  escape (snakeCase name)

/- The generated name of a service. -/
def serviceIdent
    (name : String) :
    String :=
  typeIdent (firstUpper name)

/- The generated name of the raw form of a service. -/
def handlerIdent
    (name : String) :
    String :=
  serviceIdent name ++ "Handler"

/- The generated name of the adapter of a service. -/
def adapterIdent
    (name : String) :
    String :=
  serviceIdent name ++ "Adapter"

/- The generated function that registers a service. -/
def registerIdent
    (name : String) :
    String :=
  "register_" ++ snakeCase name

/- The generated name of a method. -/
def methodIdent
    (name : String) :
    String :=
  escape (snakeCase name)

/- The generated name of the raw form of a method. -/
def methodHandlerIdent
    (name : String) :
    String :=
  snakeCase name ++ "_handler"

end Names

end TagWire
