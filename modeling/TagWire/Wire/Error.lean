import TagWire.Text.Utf8

/-
  This file defines what can be wrong with an encoded message
  or with a message to be encoded.

  Key definitions include:
    * `WireError`
    * `WireError.message`
-/

namespace TagWire

open Text

/- The faults of encoded data. -/
inductive WireError where
/- A required field to be written is unset. -/
| missingField (field : String)
/- A required field is not where it has to stand. -/
| fieldNotFound (field : String)
/- Fewer bytes are left than are needed. -/
| unexpectedEnd (offset : Nat) (needed : Nat)
/- A length is negative or too large for its prefix. -/
| invalidLength (length : Int)
/- The bytes of a string are not UTF-8. -/
| invalidUtf8 (fault : Utf8.Fault)
/- A number stands for no variant of an enum. -/
| invalidEnumValue (enum : String) (value : Nat)
/- A text is not the JSON form of the message. -/
| malformedJson
deriving DecidableEq, Repr

namespace WireError

/- The description of a fault. -/
def message : WireError → String
| missingField field =>
    s!"marshal failed, {field} must have value"
| fieldNotFound field =>
    s!"unmarshal failed, field {field} not found"
| unexpectedEnd offset needed =>
    s!"unexpected end of buffer at offset {offset}, " ++
      s!"needed {needed} more byte(s)"
| invalidLength length =>
    s!"invalid length prefix {length}"
| invalidUtf8 fault =>
    s!"invalid UTF-8 in string: {fault.message}"
| invalidEnumValue enum value =>
    s!"invalid value {value} for enum {enum}"
| malformedJson =>
    "JSON error"

end WireError

end TagWire
