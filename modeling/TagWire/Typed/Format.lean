import TagWire.Names
import TagWire.Typed.Codec

/-
  This file defines formats of messages: the fields in order,
  each with its tag and its codec. One format says both how a
  message is written and how it is read, so that the two
  cannot disagree about the fields.

  Key definitions include:
    * `FieldSpec`
    * `FieldReader`
    * `Format`
    * `Format.required`
    * `Format.optional`
    * `Format.decode`
    * `WireMessage`
-/

namespace TagWire

open Text

------------------------------------------------------------
-- Fields
------------------------------------------------------------

/- What a field is known by. -/
structure FieldSpec where
  seq : UInt8
  name : String
  optional : Bool
deriving DecidableEq, Repr

/-
  An action that reads fields. It is given the tag read last
  and gives the tag that stands behind the fields.
-/
abbrev FieldReader : Type → Type :=
  StateT (Option UInt8) (Reader WireError)

namespace FieldSpec

variable {α : Type}

/- An unset field is left out, unless it is required. -/
def encodeUnset
    (f : FieldSpec) :
    Except WireError (List UInt8) :=
  if f.optional then .ok [] else .error (.missingField f.name)

/- Write a field: its tag, then its value. -/
def encode
    (f : FieldSpec)
    (c : Codec α)
    (a : α) :
    Except WireError (List UInt8) :=
  if c.isZero a then
    f.encodeUnset
  else do
    let bytes ← c.encode a
    return f.seq :: bytes

/-
  Read a field. It is there exactly when the tag read last is
  its own; then the next tag stands behind its value.
-/
def read
    (f : FieldSpec)
    (c : Codec α) :
    FieldReader α :=
  fun tag =>
    if tag = some f.seq then do
      let a ← c.read
      let next ← Reader.tag
      return (a, next)
    else if f.optional then
      return (c.zero, tag)
    else
      Reader.fail (.fieldNotFound f.name)

end FieldSpec

------------------------------------------------------------
-- Formats
------------------------------------------------------------

/-
  The format of the first fields of the messages in `μ`. What
  is read of these fields makes up an `α`.
-/
structure Format (μ α : Type) where
  encode : μ → Except WireError (List UInt8)
  read : FieldReader α
  shown : μ → List (String × String)

namespace Format

variable {μ α β : Type}

/- The format without fields. -/
def start
    (a : α) :
    Format μ α where
  encode _ := .ok []
  read := pure a
  shown _ := []

/- A format with one more field behind the others. -/
def field
    (f : Format μ (β → α))
    (spec : FieldSpec)
    (c : Codec β)
    (get : μ → β) :
    Format μ α where
  encode x := do
    let before ← f.encode x
    let bytes ← spec.encode c (get x)
    return before ++ bytes
  read := do
    let make ← f.read
    let b ← spec.read c
    return make b
  shown x :=
    f.shown x ++
      [(Names.fieldIdent spec.name, c.inspect (get x))]

/- A format with one more field, which has to be set. -/
def required
    (f : Format μ (β → α))
    (seq : UInt8)
    (name : String)
    (c : Codec β)
    (get : μ → β) :
    Format μ α :=
  f.field ⟨seq, name, false⟩ c get

/- A format with one more field, which may be unset. -/
def optional
    (f : Format μ (β → α))
    (seq : UInt8)
    (name : String)
    (c : Codec β)
    (get : μ → β) :
    Format μ α :=
  f.field ⟨seq, name, true⟩ c get

/- Read a message. What stands behind its fields is left. -/
def decode
    (f : Format μ μ)
    (data : List UInt8) :
    Except WireError μ :=
  let message : Reader WireError μ := do
    let tag ← Reader.tag
    let (x, _) ← f.read.run tag
    return x
  message.eval data

/- A message as a diagnostic shows it. -/
def inspect
    (f : Format μ μ)
    (name : String)
    (x : μ) :
    String :=
  shownParts (Names.typeIdent name) (f.shown x)

end Format

------------------------------------------------------------
-- Messages
------------------------------------------------------------

/- The types of messages: what is written can be read. -/
class WireMessage (μ : Type) where
  encode : μ → Except WireError (List UInt8)
  decode : List UInt8 → Except WireError μ
  inspect : μ → String

/- A format makes its messages ones that can be sent. -/
abbrev Format.wireMessage
    {μ : Type}
    (f : Format μ μ)
    (name : String) :
    WireMessage μ where
  encode := f.encode
  decode := f.decode
  inspect := f.inspect name

/- Messages of a type as parts of others. -/
def Codec.message
    (μ : Type)
    [WireMessage μ]
    [Inhabited μ] :
    Codec μ :=
  nested default WireMessage.encode WireMessage.decode
    WireMessage.inspect

end TagWire
