import TagWire.Emit.Phrase
import TagWire.Wire.Error

/-
  The language of the generated code, as far as it is used:
  types, expressions, statements and the functions made of
  them, each with its text. What they mean is said elsewhere;
  that the texts are those which are generated is proven.

  Main declarations:
    * `Generated.phrase`
    * `Generated.CodeType`
    * `Generated.Expr`
    * `Generated.Statement`
    * `Generated.Body`
    * `Generated.Program`
    * `Generated.fileText`
-/

------------------------------------------------------------
-- Types
------------------------------------------------------------

namespace TagWire

namespace Generated

/-
  A text put together from pieces. It is kept folded, so that
  the equations of the texts below stay small.
-/
@[irreducible]
def phrase
    (pieces : List String) :
    String :=
  String.join pieces

@[simp]
theorem phrase_nil :
    phrase [] = "" := by
  rw [phrase]
  rfl

@[simp]
theorem phrase_cons
    (piece : String)
    (pieces : List String) :
    phrase (piece :: pieces) = piece ++ phrase pieces := by
  rw [phrase, phrase, String.join_cons]

/- The types of data. -/
inductive CodeType where
| number (kind : NumKind)
| string
| named (ident : String)
| list (element : CodeType)
| map (key value : CodeType)
| option (inner : CodeType)
| boxed (inner : CodeType)
deriving DecidableEq, Repr

namespace CodeType

/- Numbers are named for their sort and their width in bits. -/
def text : CodeType → String
| number (.int k) =>
    phrase
      [if k.isSigned then "i" else "u", toString (8 * k.size)]
| number (.float k) => phrase ["f", toString (8 * k.size)]
| string => "::std::string::String"
| named ident => ident
| list element => phrase ["::std::vec::Vec<", element.text, ">"]
| map key value =>
    phrase
      [
        "::std::collections::BTreeMap<", key.text, ", ",
        value.text, ">"
      ]
| option inner =>
    phrase ["::std::option::Option<", inner.text, ">"]
| boxed inner => phrase ["::std::boxed::Box<", inner.text, ">"]

end CodeType

------------------------------------------------------------
-- Expressions
------------------------------------------------------------

/-
  Expressions. Those that can fail pass the failure on, with a
  question mark that is part of their text. `bb` is the buffer
  of the function that they stand in.
-/
inductive Expr where
| var (name : String)
| field (e : Expr) (ident : String)
| deref (e : Expr)
| borrow (e : Expr)
| paren (e : Expr)
| someOf (e : Expr)
| box (e : Expr)
| owned (e : Expr)
/- Tests. -/
| isEmpty (e : Expr)
| negate (e : Expr)
| isNotZero (e : Expr)
| isNotZeroPoint (e : Expr)
| isTag (e : Expr) (seq : UInt8)
/- Numbers of variants, and variants of numbers. -/
| asUint32 (e : Expr)
| tryFrom (type : String) (e : Expr)
/- New data. -/
| unit
| selfDefault
| listWithCapacity (capacity : Expr)
| emptyMap
/- Sizes. -/
| len (e : Expr)
| min (e e' : Expr)
/- What is read from the buffer. -/
| remaining
| readTag
| readNumber (kind : NumKind)
| readString
| readLen
/- Calls. -/
| readRoutine (ident : String)
| unmarshal (type : String) (e : Expr)
| marshal (e : Expr)
| toJson (e : Expr)
| fromJson (e : Expr)
deriving DecidableEq, Repr

namespace Expr

def text : Expr → String
| var name => name
| field e ident => phrase [e.text, ".", ident]
| deref e => phrase ["*", e.text]
| borrow e => phrase ["&", e.text]
| paren e => phrase ["(", e.text, ")"]
| someOf e => phrase ["Some(", e.text, ")"]
| box e => phrase ["::std::boxed::Box::new(", e.text, ")"]
| owned e => phrase [e.text, ".to_string()"]
| isEmpty e => phrase [e.text, ".is_empty()"]
| negate e => phrase ["!", e.text]
| isNotZero e => phrase [e.text, " != 0"]
| isNotZeroPoint e => phrase [e.text, " != 0.0"]
| isTag e seq =>
    phrase [e.text, " == Some(", toString seq.toNat, ")"]
| asUint32 e => phrase [e.text, " as u32"]
| tryFrom type e =>
    phrase
      [
        "<", type, " as ::std::convert::TryFrom<u32>>",
        "::try_from(", e.text, ")?"
      ]
| unit => "()"
| selfDefault => "Self::default()"
| listWithCapacity capacity =>
    phrase ["::std::vec::Vec::with_capacity(", capacity.text, ")"]
| emptyMap => "::std::collections::BTreeMap::new()"
| len e => phrase [e.text, ".len()"]
| min e e' => phrase [e.text, ".min(", e'.text, ")"]
| remaining => "bb.remaining()"
| readTag => "bb.read_tag()"
| readNumber kind => phrase ["bb.read_", kind.name, "()?"]
| readString => "bb.read_string()?"
| readLen => "bb.read_len()?"
| readRoutine ident => phrase ["unmarshal_", ident, "(bb)?"]
| unmarshal type e =>
    phrase
      [
        "<", type, " as ::dgen::wire::Message>::unmarshal(",
        e.text, ")?"
      ]
| marshal e =>
    phrase ["::dgen::wire::Message::marshal(", e.text, ")?"]
| toJson e =>
    phrase ["::dgen::serde_json::to_vec(", e.text, ")?"]
| fromJson e =>
    phrase ["::dgen::serde_json::from_slice(", e.text, ")?"]

end Expr

------------------------------------------------------------
-- Statements
------------------------------------------------------------

/-
  What a branch depends on: a test, or whether there is a value
  to which a name is bound.
-/
inductive Condition where
| holds (e : Expr)
| binds (name : String) (e : Expr)
deriving DecidableEq, Repr

namespace Condition

def text : Condition → String
| holds e => e.text
| binds name e => phrase ["let Some(", name, ") = ", e.text]

end Condition

/- What is wrong with a field that is not there. -/
inductive Fault where
| missingField
| fieldNotFound
deriving DecidableEq, Repr

namespace Fault

def text : Fault → String
| missingField => "MissingField"
| fieldNotFound => "FieldNotFound"

/- The error for a field of a schema. -/
def error
    (field : String) :
    Fault → WireError
| missingField => .missingField field
| fieldNotFound => .fieldNotFound field

end Fault

/- Statements. A gap is an empty line. -/
inductive Statement where
| bind (isMutable : Bool) (name : String) (e : Expr)
| openBuffer (e : Expr)
| assign (name : String) (e : Expr)
| assignField (name ident : String) (e : Expr)
| push (name : String) (e : Expr)
| insert (name : String) (key value : Expr)
/- What is written to the buffer. -/
| writeTag (seq : UInt8)
| writeNumber (kind : NumKind) (e : Expr)
| writeString (e : Expr)
| writeLen (e : Expr)
| writeBytes (e : Expr)
| writeRoutine (ident : String) (e : Expr)
/- The buffer read from is moved on. -/
| skip (e : Expr)
/- Control. -/
| branch
    (condition : Condition)
    (body otherwise : List Statement)
| each
    (names : List String) (e : Expr) (body : List Statement)
| times (e : Expr) (body : List Statement)
| fail (fault : Fault) (field : String)
| gap
deriving Repr

namespace Statement

/- What is bound by each round of a loop. -/
def pattern : List String → String
| [name] => name
| names => phrase ["(", ", ".intercalate names, ")"]

mutual

/- The lines of a statement, each behind a margin. -/
def lines
    (margin : String) :
    Statement → List String
| bind isMutable name e =>
    [
      phrase
        [
          margin, if isMutable then "let mut " else "let ",
          name, " = ", e.text, ";"
        ]
    ]
| openBuffer e =>
    [
      phrase
        [
          margin, "let bb = &mut ",
          "::dgen::wire::ByteBuffer::new(", e.text, ");"
        ]
    ]
| assign name e => [phrase [margin, name, " = ", e.text, ";"]]
| assignField name ident e =>
    [phrase [margin, name, ".", ident, " = ", e.text, ";"]]
| push name e =>
    [phrase [margin, name, ".push(", e.text, ");"]]
| insert name key value =>
    [
      phrase
        [
          margin, name, ".insert(", key.text, ", ", value.text,
          ");"
        ]
    ]
| writeTag seq =>
    [phrase [margin, "bb.write_tag(", toString seq.toNat, ");"]]
| writeNumber kind e =>
    [phrase [margin, "bb.write_", kind.name, "(", e.text, ");"]]
| writeString e =>
    [phrase [margin, "bb.write_string(", e.text, ")?;"]]
| writeLen e => [phrase [margin, "bb.write_len(", e.text, ")?;"]]
| writeBytes e =>
    [phrase [margin, "bb.write_bytes(", e.text, ");"]]
| writeRoutine ident e =>
    [phrase [margin, "marshal_", ident, "(", e.text, ", bb)?;"]]
| skip e => [phrase [margin, "bb.skip(", e.text, ")?;"]]
| branch condition body otherwise =>
    [Emit.opening (phrase [margin, "if ", condition.text])] ++
      linesAll (phrase [margin, "    "]) body ++
      (if otherwise.isEmpty then
        []
      else
        [Emit.opening (phrase [Emit.closing margin, " else"])] ++
          linesAll (phrase [margin, "    "]) otherwise) ++
      [Emit.closing margin]
| each names e body =>
    [
      Emit.opening
        (phrase
          [margin, "for ", pattern names, " in ", e.text])
    ] ++
      linesAll (phrase [margin, "    "]) body ++
      [Emit.closing margin]
| times e body =>
    [Emit.opening (phrase [margin, "for _ in 0..", e.text])] ++
      linesAll (phrase [margin, "    "]) body ++
      [Emit.closing margin]
| fail fault field =>
    [
      phrase
        [
          margin, "return Err(::dgen::wire::WireError::",
          fault.text, "(", Text.inspect field, ".to_string()));"
        ]
    ]
| gap => [""]

/- The lines of some statements. -/
def linesAll
    (margin : String) :
    List Statement → List String
| [] => []
| s :: rest => lines margin s ++ linesAll margin rest

end

end Statement

------------------------------------------------------------
-- Bodies
------------------------------------------------------------

/-
  How a function ends: with a result, or with what it comes to
  that a message is written.
-/
inductive Ending where
| ok (e : Expr)
| marshalInto (e : Expr)
deriving DecidableEq, Repr

namespace Ending

def text : Ending → String
| ok e => phrase ["Ok(", e.text, ")"]
| marshalInto e =>
    phrase
      ["::dgen::wire::Message::marshal_into(", e.text, ", bb)"]

end Ending

/- What a function does. -/
structure Body where
  statements : List Statement
  ending : Ending
deriving Repr

namespace Body

def lines
    (margin : String)
    (b : Body) :
    List String :=
  Statement.linesAll margin b.statements ++
    [phrase [margin, b.ending.text]]

end Body

end Generated

end TagWire

------------------------------------------------------------
-- Items
------------------------------------------------------------

namespace TagWire

namespace Generated

open Text Emit

/- What the compiler is asked for about a type of data. -/
structure Attributes where
  derives : List String
  others : List String
deriving DecidableEq, Repr

namespace Attributes

def lines
    (a : Attributes) :
    List String :=
  ["#[derive(" ++ ", ".intercalate a.derives ++ ")]"] ++
    a.others.map fun other => "#[" ++ other ++ "]"

end Attributes

/- A variant of an enum, with its number. -/
structure Variant where
  isDefault : Bool
  ident : String
  number : Nat
deriving DecidableEq, Repr

namespace Variant

def lines
    (v : Variant) :
    List String :=
  (if v.isDefault then ["    #[default]"] else []) ++
    ["    " ++ v.ident ++ " = " ++ toString v.number ++ ","]

end Variant

/-
  How a variant is found by its number, and the name of the
  enum that is reported for other numbers.
-/
structure Numbering where
  arms : List (Nat × String)
  reported : String
deriving DecidableEq, Repr

namespace Numbering

def lines
    (ident : String)
    (n : Numbering) :
    List String :=
  [
    opening ("impl ::std::convert::TryFrom<u32> for " ++ ident),
    "    type Error = ::dgen::wire::WireError;",
    "",
    opening
      ("    fn try_from(value: u32) -> " ++
        resultOf "Self" "Self::Error"),
    opening "        match value"
  ] ++
    n.arms.map (fun (number, variant) =>
      "            " ++ toString number ++ " => Ok(" ++ ident ++
        "::" ++ variant ++ "),") ++
  [
    "            _ => Err(" ++
      "::dgen::wire::WireError::InvalidEnumValue " ++
      inBraces
        ("name: " ++ inspect n.reported ++
          ".to_string(), value") ++ "),",
    closing "        ",
    closing "    ",
    rightBrace
  ]

end Numbering

/- An enum. -/
structure EnumItem where
  attributes : Attributes
  ident : String
  variants : List Variant
  numbering : Option Numbering
deriving DecidableEq, Repr

namespace EnumItem

/- The blocks of lines of an enum. -/
def blocks
    (e : EnumItem) :
    List (List String) :=
  let head := opening ("pub enum " ++ e.ident)
  let body :=
    if e.variants.isEmpty then
      [head ++ rightBrace]
    else
      [head] ++ e.variants.flatMap Variant.lines ++ [rightBrace]
  (e.attributes.lines ++ body) ::
    (e.numbering.map (Numbering.lines e.ident)).toList

end EnumItem

/- The type of data of a message. -/
structure StructItem where
  attributes : Attributes
  ident : String
  fields : List (String × CodeType)
deriving DecidableEq, Repr

namespace StructItem

def lines
    (s : StructItem) :
    List String :=
  let head := opening ("pub struct " ++ s.ident)
  let body :=
    if s.fields.isEmpty then
      [head ++ rightBrace]
    else
      [head] ++
        s.fields.map (fun (ident, type) =>
          "    pub " ++ ident ++ ": " ++ type.text ++ ",") ++
        [rightBrace]
  s.attributes.lines ++ body

end StructItem

/-
  A message: its data, how it is written and how it is read,
  each function with the name of its parameter.
-/
structure MessageItem where
  data : StructItem
  buffer : String
  marshalInto : Body
  bytes : String
  unmarshal : Body
deriving Repr

namespace MessageItem

/- The lines of the two functions of a message. -/
def codecLines
    (m : MessageItem) :
    List String :=
  [
    opening ("impl ::dgen::wire::Message for " ++ m.data.ident),
    opening
      ("    fn marshal_into(&self, " ++ m.buffer ++
        ": &mut ::dgen::wire::ByteBufferMut) -> " ++
        wireResult "()")
  ] ++
    m.marshalInto.lines "        " ++
  [
    closing "    ",
    "",
    opening
      ("    fn unmarshal(" ++ m.bytes ++ ": &[u8]) -> " ++
        wireResult "Self")
  ] ++
    m.unmarshal.lines "        " ++
  [closing "    ", rightBrace]

/- The blocks of lines of a message. -/
def blocks
    (m : MessageItem) :
    List (List String) :=
  [m.data.lines, m.codecLines]

end MessageItem

/- What a routine that writes is given by reference. -/
inductive Referent where
| whole (type : CodeType)
| slice (element : CodeType)
deriving DecidableEq, Repr

namespace Referent

def text : Referent → String
| whole type => type.text
| slice element => "[" ++ element.text ++ "]"

end Referent

/- A routine that writes and one that reads. -/
structure RoutineItem where
  ident : String
  given : Referent
  writer : Body
  result : CodeType
  reader : Body
deriving Repr

namespace RoutineItem

/- The blocks of lines of a pair of routines. -/
def blocks
    (r : RoutineItem) :
    List (List String) :=
  [
    [
      opening
        ("fn marshal_" ++ r.ident ++ "(value: &" ++
          r.given.text ++
          ", bb: &mut ::dgen::wire::ByteBufferMut) -> " ++
          wireResult "()")
    ] ++
      r.writer.lines "    " ++ [rightBrace],
    [
      opening
        ("fn unmarshal_" ++ r.ident ++
          "(bb: &mut ::dgen::wire::ByteBuffer<'_>) -> " ++
          wireResult r.result.text)
    ] ++
      r.reader.lines "    " ++ [rightBrace]
  ]

end RoutineItem

------------------------------------------------------------
-- Programs
------------------------------------------------------------

/- A file of data types with their codecs. -/
structure Program where
  enums : List EnumItem
  messages : List MessageItem
  routines : List RoutineItem
deriving Repr

namespace Program

/- The blocks of lines of a program. -/
def blocks
    (p : Program) :
    List (List String) :=
  p.enums.flatMap EnumItem.blocks ++
    p.messages.flatMap MessageItem.blocks ++
    p.routines.flatMap RoutineItem.blocks

end Program

/- Lines of text, each with its end. -/
def unlines
    (ls : List String) :
    String :=
  String.join (ls.map (· ++ "\n"))

/- The text of blocks of lines, an empty line between them. -/
def fileText
    (blocks : List (List String)) :
    String :=
  Emit.lines (blocks.map unlines)

end Generated

end TagWire
