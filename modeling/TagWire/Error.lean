import TagWire.Files.Error
import TagWire.Schema.Resolve
import TagWire.Schema.Stream
import TagWire.Text.Shown
import TagWire.Value.Error

/-
  This file defines all errors of the program, with the text
  for a user and the text for a diagnostic.

  Key definitions include:
    * `Error`
    * `Error.message`
    * `Error.inspect`
-/

namespace TagWire

open Text

/- The errors of the program. -/
inductive Error where
| file (e : FileError)
| parse (e : ParseError)
| schema (e : SchemaError)
| unknownBackend (name : String)
| unknownEncoding (text : String)
| codec (e : CodecError)
deriving Repr

------------------------------------------------------------
-- Messages
------------------------------------------------------------

namespace CodecError

/- The description of an error. -/
def message : CodecError → String
| wire e => s!"Wire format error: {e.message}"
| unknownMessage name => s!"Unknown message \"{name}\""
| encode fault => s!"Encode error: {fault.message}"

end CodecError

namespace Error

/- The description of an error. -/
def message : Error → String
| file e => s!"I/O error: {e.message}"
| parse e =>
    s!"Parse error at line {e.found.position.line}, " ++
      s!"column {e.found.position.column}: {e.message}"
| schema e => e.message
| unknownBackend name => s!"Unknown backend \"{name}\""
| unknownEncoding text =>
    s!"Unknown encoding \"{text}\", " ++
      "expected \"binary\" or \"json\""
| codec e => e.message

end Error

------------------------------------------------------------
-- Diagnostics
------------------------------------------------------------

namespace WireError

/- A fault as a diagnostic shows it. -/
def inspect : WireError → String
| missingField field => shownText "MissingField" field
| fieldNotFound field => shownText "FieldNotFound" field
| unexpectedEnd offset needed =>
    shownParts "UnexpectedEof"
      [("offset", toString offset), ("needed", toString needed)]
| invalidLength length => s!"InvalidLength({length})"
| invalidUtf8 fault =>
    let badLength :=
      match fault.badLength with
      | some n => s!"Some({n})"
      | none => "None"
    "InvalidUtf8(" ++
      shownParts "Utf8Error"
        [("valid_up_to", toString fault.validUpTo),
          ("error_len", badLength)] ++ ")"
| invalidEnumValue enum value =>
    shownParts "InvalidEnumValue"
      [("name", Text.inspect enum), ("value", toString value)]
| malformedJson => "Json"

end WireError

namespace SchemaError

/- A schema error as a diagnostic shows it. -/
def inspect : SchemaError → String
| unresolvedType name usedBy =>
    shownParts "UnresolvedType"
      [("name", Text.inspect (quote name)),
        ("used_by", Text.inspect usedBy)]
| duplicateDefinition name =>
    shownText "DuplicateDefinition" (quote name)
| unsupportedMapKey field key =>
    shownParts "UnsupportedMapKey"
      [("field", Text.inspect field),
        ("key", Text.inspect key.name)]
| emptyEnum field name =>
    shownParts "EmptyEnum"
      [("field", Text.inspect field),
        ("name", Text.inspect name)]

end SchemaError

namespace Error

/- An error as a diagnostic shows it. -/
def inspect : Error → String
| file e => s!"Io({e.inspect})"
| parse e =>
    shownParts "ParseError"
      [("msg", Text.inspect e.message),
        ("line", toString e.found.position.line),
        ("column", toString e.found.position.column)]
| schema e => e.inspect
| unknownBackend name => shownText "UnknownBackend" name
| unknownEncoding text => shownText "UnknownEncoding" text
| codec (.wire e) => s!"Wire({e.inspect})"
| codec (.unknownMessage name) =>
    shownText "UnknownMessage" name
| codec (.encode fault) =>
    shownText "EncodeError" fault.message

end Error

end TagWire
