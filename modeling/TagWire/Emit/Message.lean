import TagWire.Emit.Routine

/-
  This file defines the generated codec of a message. Writing
  goes through the fields and skips the unset ones; reading
  goes through the fields and the tags side by side.

  Key definitions include:
    * `Emit.MessageCodec`
    * `Emit.RoutineTable.codecOf`
    * `Emit.MessageCodec.code`
    * `Emit.jsonCodecCode`
-/

namespace TagWire

namespace Emit

open Text

------------------------------------------------------------
-- Codecs
------------------------------------------------------------

/- A field and how its value is transferred. -/
structure FieldCodec where
  field : Field TypeRef
  transfer : Transfer
deriving DecidableEq, Repr

/- A message and how its fields are transferred. -/
structure MessageCodec where
  name : String
  fields : List FieldCodec
deriving DecidableEq, Repr

namespace MessageCodec

/- The routines that the codec of a message calls. -/
def calls
    (c : MessageCodec) :
    List String :=
  c.fields.flatMap (·.transfer.calls)

end MessageCodec

namespace RoutineTable

/- The codec of a message, with the routines that it needs. -/
def codecOf
    (m : Message TypeRef) :
    StateM RoutineTable MessageCodec := do
  let fields ← m.fields.mapM fun f => do
    let transfer ← transferOf f.type
    return FieldCodec.mk f transfer
  return ⟨m.name, fields⟩

end RoutineTable

------------------------------------------------------------
-- Fields
------------------------------------------------------------

namespace FieldCodec

/- The generated name of the field. -/
def ident
    (c : FieldCodec) :
    String :=
  Names.fieldIdent c.field.name

/- Where the field stands. -/
def place
    (c : FieldCodec) :
    Place :=
  .field c.ident

/- The condition under which a field is set. -/
def presence
    (c : FieldCodec) :
    String :=
  match c.field.type with
  | .scalar .string | .list _ | .map _ _ =>
      "!" ++ c.place.value ++ ".is_empty()"
  | .scalar (.num (.float _)) => c.place.value ++ " != 0.0"
  | .scalar (.num (.int _)) => c.place.value ++ " != 0"
  | .named (.enum _) =>
      "(" ++ c.place.value ++ " as u32) != 0"
  | .named (.message _) =>
      "let Some(value) = " ++ c.place.borrow

/- The statement that writes a set field. -/
def write
    (c : FieldCodec) :
    String :=
  match c.field.type with
  | .named (.message _) =>
      c.transfer.write (.referent "value")
  | _ => c.transfer.write c.place

/- The expression that reads a field. -/
def read
    (c : FieldCodec) :
    String :=
  match c.field.type with
  | .named (.message _) =>
      "Some(::std::boxed::Box::new(" ++ c.transfer.read ++ "))"
  | _ => c.transfer.read

/- What happens if a field is not there. -/
def otherwise
    (c : FieldCodec)
    (error : String) :
    String :=
  if c.field.optional then
    ""
  else
    lines
      [
        opening " else",
        "            return Err(" ++ wireError ++ "::" ++
          error ++ "(" ++ inspect c.field.name ++
          ".to_string()));",
        closing "        "
      ]

/- The code that writes a field. -/
def writeCode
    (c : FieldCodec) :
    String :=
  lines
    [
      opening ("        if " ++ c.presence),
      "            bb.write_tag(" ++
        toString c.field.seq.toNat ++ ");",
      "            " ++ c.write,
      closing "        " ++ c.otherwise "MissingField",
      "",
      ""
    ]

/- The code that reads a field. The last one reads no tag. -/
def readCode
    (isLast : Bool)
    (c : FieldCodec) :
    String :=
  lines
    ([
      opening
        ("        if seq == Some(" ++
          toString c.field.seq.toNat ++ ")"),
      "            x." ++ c.ident ++ " = " ++ c.read ++ ";"
    ] ++
    (if isLast then
      []
    else
      ["            seq = bb.read_tag();"]) ++
    [
      closing "        " ++ c.otherwise "FieldNotFound",
      "",
      ""
    ])

end FieldCodec

------------------------------------------------------------
-- Messages
------------------------------------------------------------

/- The first line of a message codec. -/
def codecHead
    (name : String) :
    String :=
  opening
    ("impl ::dgen::wire::Message for " ++ Names.typeIdent name)

/- The first line of the function that writes a message. -/
def writeHead
    (parameter : String) :
    String :=
  opening
    ("    fn marshal_into(&self, " ++ parameter ++ ") -> " ++
      wireResult "()")

/- The first line of the function that reads a message. -/
def readHead
    (parameter : String) :
    String :=
  opening
    ("    fn unmarshal(" ++ parameter ++ ": &[u8]) -> " ++
      wireResult "Self")

namespace MessageCodec

/- The code of a message without fields. -/
def emptyCode
    (name : String) :
    String :=
  lines
    [
      codecHead name,
      writeHead ("_" ++ writeParameter),
      "        Ok(())",
      closing "    ",
      "",
      readHead "_data",
      "        Ok(Self::default())",
      closing "    ",
      rightBrace,
      ""
    ]

/- The code that reads some fields, the last one apart. -/
def readFieldsCode : List FieldCodec → String
| [] => ""
| c :: rest =>
    c.readCode rest.isEmpty ++ readFieldsCode rest

/- The code of a message codec. -/
def code
    (c : MessageCodec) :
    String :=
  if c.fields.isEmpty then
    emptyCode c.name
  else
    let tagBinding :=
      if c.fields.length = 1 then "let seq" else "let mut seq"
    lines
      [
        codecHead c.name,
        writeHead writeParameter,
        String.join (c.fields.map FieldCodec.writeCode) ++
          "        Ok(())",
        closing "    ",
        "",
        readHead "data",
        "        let bb = &mut " ++
          "::dgen::wire::ByteBuffer::new(data);",
        "        let mut x = Self::default();",
        "        " ++ tagBinding ++ " = bb.read_tag();",
        "",
        readFieldsCode c.fields ++ "        Ok(x)",
        closing "    ",
        rightBrace,
        ""
      ]

end MessageCodec

/- The code of a message that is encoded as JSON. -/
def jsonCodecCode
    (m : Message TypeRef) :
    String :=
  lines
    [
      codecHead m.name,
      writeHead writeParameter,
      "        bb.write_bytes(" ++
        "&::dgen::serde_json::to_vec(self)?);",
      "        Ok(())",
      closing "    ",
      "",
      readHead "data",
      "        Ok(::dgen::serde_json::from_slice(data)?)",
      closing "    ",
      rightBrace,
      ""
    ]

end Emit

end TagWire
