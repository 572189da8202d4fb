import TagWire.Schema.Decl
import TagWire.Value.Inspect
import TagWire.Wire.Error

/-
  This file defines what can go wrong when a value is encoded
  or decoded by a schema.

  Key definitions include:
    * `EncodeFault`
    * `CodecError`
-/

namespace TagWire

/- The ways in which a value is not one of its type. -/
inductive EncodeFault where
/- Something else stands where a message has to. -/
| notMessage (found : Value)
/- An enum has no variant of this name. -/
| noVariant (enum : String) (variant : String)
/- A value is not of the type that its field has. -/
| typeMismatch
    (field : String) (type : ResolvedType) (found : Value)
/- A key is not of the type that its map has. -/
| keyMismatch (key : MapKey) (kind : ScalarKind)
/- Floats key no maps. -/
| floatKey (kind : ScalarKind)
deriving Repr

namespace EncodeFault

/- The description of a fault. -/
def message : EncodeFault → String
| notMessage found =>
    s!"expected a message but found {found.inspect}"
| noVariant enum variant =>
    s!"{enum} has no variant {variant}"
| typeMismatch field type found =>
    s!"field {field} expects {type.signature} " ++
      s!"but found {found.inspect}"
| keyMismatch key kind =>
    s!"map key {key.inspect} is not a {kind.name}"
| floatKey kind =>
    s!"{kind.name} cannot be a map key"

end EncodeFault

/- The errors of encoding and decoding values. -/
inductive CodecError where
| wire (e : WireError)
| unknownMessage (name : String)
| encode (fault : EncodeFault)
deriving Repr

end TagWire
