import TagWire.Schema.Decl
import TagWire.Text.Quoted

/-
  This file defines the phrases from which generated code is
  put together: types, places and the transfer of one value.

  Key definitions include:
    * `Emit.lines`
    * `Emit.opening` and `Emit.closing`
    * `Emit.elementType`
    * `Emit.fieldType`
    * `Emit.Place`
    * `Emit.Transfer`
-/

namespace TagWire

namespace Emit

open Text

/- Lines of text, the last one without an end. -/
def lines
    (parts : List String) :
    String :=
  "\n".intercalate parts

/- The line that opens a block. -/
def opening
    (head : String) :
    String :=
  head ++ " " ++ leftBrace

/- The line that closes a block. -/
def closing
    (indent : String) :
    String :=
  indent ++ rightBrace

------------------------------------------------------------
-- Types
------------------------------------------------------------

/- The error type of generated codecs. -/
def wireError : String :=
  "::dgen::wire::WireError"

/- The type of a result with some error. -/
def resultOf
    (value error : String) :
    String :=
  "::std::result::Result<" ++ value ++ ", " ++ error ++ ">"

/- The type of a result of generated codecs. -/
def wireResult
    (value : String) :
    String :=
  resultOf value wireError

/- The type of a list. -/
def listOf
    (element : String) :
    String :=
  "::std::vec::Vec<" ++ element ++ ">"

/- The type of maps, without what they hold. -/
def mapName : String :=
  "::std::collections::BTreeMap"

/- The type of a map. -/
def mapOf
    (key value : String) :
    String :=
  mapName ++ "<" ++ key ++ ", " ++ value ++ ">"

/- The parameter that is written to. -/
def writeParameter : String :=
  "bb: &mut ::dgen::wire::ByteBufferMut"

/- The parameter that is read from. -/
def readParameter : String :=
  "bb: &mut ::dgen::wire::ByteBuffer<'_>"

/- The type of a number. -/
def numberType : NumKind → String
| .int .uint8 => "u8"
| .int .uint16 => "u16"
| .int .uint32 => "u32"
| .int .uint64 => "u64"
| .int .int8 => "i8"
| .int .int16 => "i16"
| .int .int32 => "i32"
| .int .int64 => "i64"
| .float .float32 => "f32"
| .float .float64 => "f64"

/- The type of a scalar. -/
def scalarType : ScalarKind → String
| .num kind => numberType kind
| .string => "::std::string::String"

/- The type of a value in a list or a map. -/
def elementType : ResolvedType → String
| .scalar kind => scalarType kind
| .named r => Names.typeIdent r.name
| .list element => listOf (elementType element)
| .map key value => mapOf (scalarType key) (elementType value)

/-
  The type of a field. A message is held by reference, and is
  absent while it is unset.
-/
def fieldType : ResolvedType → String
| .named (.message name) =>
    "::std::option::Option<::std::boxed::Box<" ++
      Names.typeIdent name ++ ">>"
| type => elementType type

------------------------------------------------------------
-- Transfers
------------------------------------------------------------

/- Where a value to be written stands. -/
inductive Place where
/- What a reference of this name refers to. -/
| referent (reference : String)
/- The field of this name. -/
| field (ident : String)
deriving DecidableEq, Repr

namespace Place

/- The value at a place. -/
def value : Place → String
| referent reference => "*" ++ reference
| field ident => "self." ++ ident

/- A reference to the value at a place. -/
def borrow : Place → String
| referent reference => reference
| field ident => "&self." ++ ident

end Place

/-
  How one value is written and read: as a scalar, as the
  number of an enum value, or through a shared routine.
-/
inductive Transfer where
| scalar (kind : ScalarKind)
| enum (name : String)
| routine (ident : String)
deriving DecidableEq, Repr

namespace Transfer

/- The name of the routine that writes. -/
def writerName
    (ident : String) :
    String :=
  "marshal_" ++ ident

/- The name of the routine that reads. -/
def readerName
    (ident : String) :
    String :=
  "unmarshal_" ++ ident

/- The statement that writes the value at a place. -/
def write
    (p : Place) :
    Transfer → String
| scalar .string => "bb.write_string(" ++ p.borrow ++ ")?;"
| scalar kind =>
    "bb.write_" ++ kind.name ++ "(" ++ p.value ++ ");"
| enum _ => "bb.write_uint32(" ++ p.value ++ " as u32);"
| routine ident =>
    writerName ident ++ "(" ++ p.borrow ++ ", bb)?;"

/- The expression that reads a value. -/
def read : Transfer → String
| scalar .string => "bb.read_string()?.to_string()"
| scalar kind => "bb.read_" ++ kind.name ++ "()?"
| enum name =>
    "<" ++ Names.typeIdent name ++
      " as ::std::convert::TryFrom<u32>>" ++
      "::try_from(bb.read_uint32()?)?"
| routine ident => readerName ident ++ "(bb)?"

/- The routines that a transfer calls. -/
def calls : Transfer → List String
| routine ident => [ident]
| _ => []

end Transfer

end Emit

end TagWire
