import TagWire.Emit.Phrase

/-
  This file defines the generated data types: one for each
  enum and one for each message.

  Key definitions include:
    * `Encoding`
    * `Emit.enumCode`
    * `Emit.structCode`
-/

namespace TagWire

/- How generated messages are encoded. -/
inductive Encoding where
| binary
| json
deriving DecidableEq, Repr

namespace Encoding

/- How an encoding is written. -/
def text : Encoding → String
| binary => "binary"
| json => "json"

/- The encoding of a text. -/
def ofText? : String → Option Encoding
| "binary" => some binary
| "json" => some json
| _ => none

end Encoding

namespace Emit

open Text

/- What every generated enum can do. -/
def enumDerives : String :=
  "Debug, Clone, Copy, PartialEq, Eq, Hash, PartialOrd, Ord"

/- What every generated message can do. -/
def structDerives : String :=
  "Debug, Clone, Default, PartialEq"

/- The lines that say what a data type can do. -/
def deriveLines
    (encoding : Encoding)
    (derives : String) :
    List String :=
  match encoding with
  | .binary => ["#[derive(" ++ derives ++ ")]"]
  | .json =>
      [
        "#[derive(" ++ derives ++
          ", ::dgen::serde::Serialize" ++
          ", ::dgen::serde::Deserialize)]",
        "#[serde(crate = \"::dgen::serde\")]"
      ]

------------------------------------------------------------
-- Enums
------------------------------------------------------------

/- The variants of an enum with their numbers. -/
def numbered
    (e : EnumDecl) :
    List (String × Nat) :=
  e.variants.zipIdx

/- The lines of the variants of an enum. -/
def variantLines
    (e : EnumDecl) :
    List String :=
  (numbered e).flatMap fun (variant, i) =>
    (if i = 0 then ["    #[default]"] else []) ++
      ["    " ++ Names.typeIdent variant ++ " = " ++
        toString i ++ ","]

/- The code that finds the variant of a number. -/
def enumReadCode
    (e : EnumDecl) :
    String :=
  let name := Names.typeIdent e.name
  let arms :=
    (numbered e).map fun (variant, i) =>
      "            " ++ toString i ++ " => Ok(" ++ name ++
        "::" ++ Names.typeIdent variant ++ "),"
  lines
    ([
      opening
        ("impl ::std::convert::TryFrom<u32> for " ++ name),
      "    type Error = ::dgen::wire::WireError;",
      "",
      opening
        ("    fn try_from(value: u32) -> " ++
          resultOf "Self" "Self::Error"),
      opening "        match value"
    ] ++ arms ++
    [
      "            _ => Err(" ++
        "::dgen::wire::WireError::InvalidEnumValue " ++
        inBraces
          ("name: " ++ inspect e.name ++
            ".to_string(), value") ++ "),",
      closing "        ",
      closing "    ",
      rightBrace,
      ""
    ])

/- The code of an enum. -/
def enumCode
    (encoding : Encoding)
    (e : EnumDecl) :
    String :=
  let head := opening ("pub enum " ++ Names.typeIdent e.name)
  if e.variants.isEmpty then
    lines
      (deriveLines encoding enumDerives ++
        [head ++ rightBrace, ""])
  else
    let reading :=
      match encoding with
      | .binary => [enumReadCode e]
      | .json => []
    lines
      (deriveLines encoding (enumDerives ++ ", Default") ++
        ["#[repr(u32)]", head] ++ variantLines e ++
        [rightBrace ++ "\n"] ++ reading)

------------------------------------------------------------
-- Messages
------------------------------------------------------------

/- The code of the data type of a message. -/
def structCode
    (encoding : Encoding)
    (m : Message TypeRef) :
    String :=
  let head := opening ("pub struct " ++ Names.typeIdent m.name)
  let body :=
    if m.fields.isEmpty then
      [head ++ rightBrace ++ "\n"]
    else
      [head] ++
        m.fields.map (fun f =>
          "    pub " ++ Names.fieldIdent f.name ++ ": " ++
            fieldType f.type ++ ",") ++
        [rightBrace ++ "\n"]
  lines (deriveLines encoding structDerives ++ body)

end Emit

end TagWire
