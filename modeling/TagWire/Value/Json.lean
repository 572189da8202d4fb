import TagWire.Json.Basic
import TagWire.Value.Inspect

/-
  This file defines the JSON form of values. Messages and maps
  become objects with their members in ascending order, keys
  become text, and enum values the name of their variant.

  Key definitions include:
    * `Value.toJson`
-/

namespace TagWire

namespace NumKind

/- A number as JSON. A float goes by way of eight bytes. -/
def toJson :
    (k : NumKind) → k.Word → Json
| int k, w => .int (k.value w)
| float .float32, w => Json.ofFloat (FloatKind.widen w)
| float .float64, w => Json.ofFloat w

end NumKind

namespace Value

mutual

/- A value as JSON. -/
def toJson : Value → Json
| number kind word => kind.toJson word
| string text => .string text
| enum _ variant => .string variant
| list elements => .array (jsonElements elements)
| map entries => .object (Keyed.ofList (jsonEntries entries))
| message _ fields => .object (Keyed.ofList (jsonFields fields))

/- The elements of a list as JSON. -/
def jsonElements : List Value → List Json
| [] => []
| v :: rest => v.toJson :: jsonElements rest

/- The entries of a map as JSON, with keys as text. -/
def jsonEntries : List (MapKey × Value) → List (String × Json)
| [] => []
| (key, v) :: rest => (key.display, v.toJson) :: jsonEntries rest

/- The fields of a message as JSON. -/
def jsonFields : List (String × Value) → List (String × Json)
| [] => []
| (name, v) :: rest => (name, v.toJson) :: jsonFields rest

end

end Value

end TagWire
