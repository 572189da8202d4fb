import TagWire.Json.Basic
import TagWire.Json.Read
import TagWire.Typed.Format

/-
  This file defines messages that are carried as JSON. Every
  such message can be written; one that is read has to have
  all of its fields.

  Key definitions include:
    * `JsonMessage`
    * `JsonMessage.encode`
    * `JsonMessage.decode`
-/

namespace TagWire

open Text

/- The types of messages that have a JSON form. -/
class JsonMessage (μ : Type) where
  toJson : μ → Json
  ofJson? : JsonPart → Option μ
  inspect : μ → String

namespace JsonMessage

variable {μ : Type} [JsonMessage μ]

/- The bytes of a message: its JSON form on one line. -/
def encode
    (x : μ) :
    List UInt8 :=
  Utf8.encode (toJson x).compact

/- Read a message from its JSON form. -/
def decode
    (data : List UInt8) :
    Except WireError μ :=
  match (JsonPart.ofBytes? data).bind ofJson? with
  | some x => .ok x
  | none => .error .malformedJson

instance : WireMessage μ where
  encode x := .ok (encode x)
  decode := decode
  inspect := inspect

end JsonMessage

end TagWire
