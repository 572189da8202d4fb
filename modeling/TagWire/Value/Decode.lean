import TagWire.Value.Encode

/-
  This file defines the decoding of values. The fields of a
  message are matched in order with the tags on the wire: a
  field is there exactly when its tag stands where it would.

  A message inside another has no length of its own. It is
  read from all bytes that are left, and the bytes it takes up
  are those of its own encoding.

  Key definitions include:
    * `Value.decodeKey`
    * `Value.decodeAs`
    * `Value.decodeFields`
    * `Value.decodeWithin`
    * `Value.decode`
-/

namespace TagWire

namespace Value

/- Read bytes, as a part of decoding. -/
def wire
    {α : Type}
    (r : Reader WireError α) :
    Reader CodecError α :=
  r.mapError .wire

/- Read the key of a map. -/
def decodeKey
    (kind : ScalarKind) :
    Reader CodecError MapKey :=
  match kind with
  | .num (.int k) => do
      let word ← wire (Reader.number (.int k))
      return .int k word
  | .num (.float _) => Reader.fail (.encode (.floatKey kind))
  | .string => do
      let text ← wire Reader.string
      return .string text

/- Read a scalar. -/
def decodeScalar
    (kind : ScalarKind) :
    Reader CodecError Value :=
  match kind with
  | .num k => do
      let word ← wire (Reader.number k)
      return number k word
  | .string => do
      let text ← wire Reader.string
      return string text

/- Read a value of an enum, by the number of its variant. -/
def decodeEnum
    (s : ResolvedSchema)
    (name : String) :
    Reader CodecError Value :=
  match s.enum? name with
  | none => Reader.fail (.unknownMessage name)
  | some e => do
      let word ← wire (Reader.number (.int .uint32))
      match e.variants[word.toNat]? with
      | some variant => return enum e.name variant
      | none =>
          Reader.fail
            (.wire (.invalidEnumValue name word.toNat))

/- How the message of a name is decoded from some bytes. -/
abbrev MessageDecoder : Type :=
  String → List UInt8 → Except CodecError Value

/-
  Read a message inside another: decode it from the bytes
  ahead, then move past as many bytes as it encodes to.
-/
def decodeNested
    (s : ResolvedSchema)
    (nested : MessageDecoder)
    (name : String) :
    Reader CodecError Value := do
  let ahead ← Reader.lookahead
  let v ← Reader.ofExcept (nested name ahead)
  let bytes ← Reader.ofExcept (v.encode s)
  wire (Reader.skip bytes.length)
  return v

/- Read a value of the given type. -/
def decodeAs
    (s : ResolvedSchema)
    (nested : MessageDecoder) :
    ResolvedType → Reader CodecError Value
| .scalar kind => decodeScalar kind
| .named (.enum name) => decodeEnum s name
| .named (.message name) => decodeNested s nested name
| .list element => do
    let size ← wire Reader.length
    let elements ← (decodeAs s nested element).times size
    return list elements
| .map key value => do
    let size ← wire Reader.length
    let entry : Reader CodecError (MapKey × Value) := do
      let k ← decodeKey key
      let v ← decodeAs s nested value
      return (k, v)
    let entries ← entry.times size
    return map (Keyed.ofList entries)

/-
  Read the fields of a message in order, given the tag read
  last. A field whose tag it is has its value behind it, and
  the next tag behind that.
-/
def decodeFields
    (s : ResolvedSchema)
    (nested : MessageDecoder) :
    List (Field TypeRef) → Option UInt8 →
      Reader CodecError (List (String × Value))
| [], _ => return []
| f :: rest, tag =>
    if tag = some f.seq then do
      let v ← decodeAs s nested f.type
      let next ← Reader.tag
      let others ← decodeFields s nested rest next
      return (f.name, v) :: others
    else if f.optional then
      decodeFields s nested rest tag
    else
      Reader.fail (.wire (.fieldNotFound f.name))

/- Decode a message, given how those inside are decoded. -/
def decodeWith
    (s : ResolvedSchema)
    (nested : MessageDecoder) :
    MessageDecoder :=
  fun name data =>
    match s.message? name with
    | none => .error (.unknownMessage name)
    | some m =>
        let fields : Reader CodecError (List (String × Value)) :=
          do
            let tag ← Reader.tag
            decodeFields s nested m.fields tag
        (fields.eval data).map fun fs =>
          message m.name (Keyed.ofList fs)

/-
  Decode a message whose nesting has at most the given depth.
  A message inside another starts behind a tag, so its bytes
  are fewer, and no message has more levels than bytes.
-/
def decodeWithin
    (s : ResolvedSchema) :
    Nat → MessageDecoder
| 0 => decodeWith s fun name _ => .error (.unknownMessage name)
| depth + 1 => decodeWith s (decodeWithin s depth)

/- Decode the message of a name. -/
def decode
    (s : ResolvedSchema)
    (name : String)
    (data : List UInt8) :
    Except CodecError Value :=
  decodeWithin s data.length name data

end Value

end TagWire
