import TagWire.Value.Error
import TagWire.Wire.Scalar

/-
  This file defines the encoding of values. A message is the
  sequence of its set fields in the order declared, each its
  tag and its value. A field with the zero value of its type
  is unset.

  Key definitions include:
    * `Value.isZero`
    * `Value.encodeAs`
    * `Value.encodeField`
    * `Value.encode`
-/

namespace TagWire

namespace Value

/-
  Whether a value is the zero value of its type. A message
  never is.
-/
def isZero
    (s : ResolvedSchema) :
    Value → Bool
| number kind word => kind.isZero word
| string text => text.isEmpty
| enum name variant =>
    match s.enum? name with
    | some e => e.variants.head? == some variant
    | none => false
| list elements => elements.isEmpty
| map entries => entries.isEmpty
| message _ _ => false

/- Encode a length of a list or a map. -/
def encodeSize
    (n : Nat) :
    Except CodecError (List UInt8) :=
  (encodeLength n).mapError .wire

/- Encode the key of a map. -/
def encodeKey
    (kind : ScalarKind)
    (key : MapKey) :
    Except CodecError (List UInt8) :=
  match key with
  | .int k word =>
      if kind = .num (.int k) then
        .ok (LittleEndian.encode word)
      else
        .error (.encode (.keyMismatch key kind))
  | .string text =>
      if kind = .string then
        (encodeString text).mapError .wire
      else
        .error (.encode (.keyMismatch key kind))

/- An unset field is left out, unless it is required. -/
def encodeUnset
    (f : Field TypeRef) :
    Except CodecError (List UInt8) :=
  if f.optional then
    .ok []
  else
    .error (.wire (.missingField f.name))

/- Encode the fields of a message as its declaration says. -/
def encodeFieldsWith
    (s : ResolvedSchema)
    (name : String)
    (encodeOne :
      Field TypeRef → Except CodecError (List UInt8)) :
    Except CodecError (List UInt8) :=
  match s.message? name with
  | none => .error (.unknownMessage name)
  | some m => do
      let parts ← m.fields.mapM encodeOne
      return parts.flatten

/- A value of another type than the field has. -/
def mismatch
    (field : String)
    (type : ResolvedType)
    (found : Value) :
    Except CodecError (List UInt8) :=
  .error (.encode (.typeMismatch field type found))

mutual

/- Encode a value as one of the given type. -/
def encodeAs
    (s : ResolvedSchema)
    (field : String)
    (type : ResolvedType) :
    Value → Except CodecError (List UInt8)
| number kind word =>
    if type = .scalar (.num kind) then
      .ok (LittleEndian.encode word)
    else
      mismatch field type (number kind word)
| string text =>
    if type = .scalar .string then
      (encodeString text).mapError .wire
    else
      mismatch field type (string text)
| enum name variant =>
    match type with
    | .named (.enum declared) =>
        let index? :=
          (s.enum? declared).bind (·.variants.idxOf? variant)
        match index? with
        | some index => .ok (LittleEndian.bytes 4 index)
        | none =>
            .error (.encode (.noVariant declared variant))
    | _ => mismatch field type (enum name variant)
| list elements =>
    match type with
    | .list element => do
        let size ← encodeSize elements.length
        let parts ← encodeElements s field element elements
        return size ++ parts
    | _ => mismatch field type (list elements)
| map entries =>
    match type with
    | .map key value => do
        let size ← encodeSize entries.length
        let parts ← encodeEntries s field key value entries
        return size ++ parts
    | _ => mismatch field type (map entries)
| message name fields =>
    match type with
    | .named (.message _) =>
        encodeFieldsWith s name
          (fun f => encodeField s f fields)
    | _ => mismatch field type (message name fields)

/- Encode the elements of a list. -/
def encodeElements
    (s : ResolvedSchema)
    (field : String)
    (type : ResolvedType) :
    List Value → Except CodecError (List UInt8)
| [] => .ok []
| v :: rest => do
    let head ← encodeAs s field type v
    let tail ← encodeElements s field type rest
    return head ++ tail

/- Encode the entries of a map, in their order. -/
def encodeEntries
    (s : ResolvedSchema)
    (field : String)
    (kind : ScalarKind)
    (type : ResolvedType) :
    List (MapKey × Value) → Except CodecError (List UInt8)
| [] => .ok []
| (key, v) :: rest => do
    let keyBytes ← encodeKey kind key
    let head ← encodeAs s field type v
    let tail ← encodeEntries s field kind type rest
    return keyBytes ++ head ++ tail

/- Encode a declared field, given the fields of a message. -/
def encodeField
    (s : ResolvedSchema)
    (f : Field TypeRef) :
    List (String × Value) → Except CodecError (List UInt8)
| [] => encodeUnset f
| (name, v) :: rest =>
    if name = f.name then
      if v.isZero s then
        encodeUnset f
      else do
        let bytes ← encodeAs s f.name f.type v
        return f.seq :: bytes
    else
      encodeField s f rest

end

/- Encode a message. -/
def encode
    (s : ResolvedSchema) :
    Value → Except CodecError (List UInt8)
| message name fields =>
    encodeFieldsWith s name (fun f => encodeField s f fields)
| v => .error (.encode (.notMessage v))

end Value

end TagWire
