import TagWire.Error
import TagWire.Schema.Parser

/-
  This file defines the way from a schema text to a schema in
  which every reference is resolved.

  Key definitions include:
    * `parseSource`
    * `compile`
-/

namespace TagWire

/- The schema that a text declares. -/
def parseSource
    (text : String) :
    Except Error ParsedSchema :=
  (parseText text).mapError .parse

/- The schema that a text declares, with names resolved. -/
def compile
    (text : String) :
    Except Error ResolvedSchema := do
  let schema ← parseSource text
  schema.resolve.mapError .schema

end TagWire
