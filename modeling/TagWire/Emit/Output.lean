import TagWire.Emit.Data
import TagWire.Emit.Message
import TagWire.Emit.Service

/-
  This file defines the whole of the generated code: one text
  with the data types and their codecs, and one text with the
  services.

  Key definitions include:
    * `Emit.Output`
    * `Emit.generate`
-/

namespace TagWire

namespace Emit

/- The two generated texts. -/
structure Output where
  types : String
  services : String
deriving DecidableEq, Repr

/- The code of a message: its data type, then its codec. -/
def messageCode
    (encoding : Encoding)
    (m : Message TypeRef) :
    StateM RoutineTable (List String) := do
  match encoding with
  | .binary => do
      let codec ← RoutineTable.codecOf m
      return [structCode encoding m, codec.code]
  | .json => return [structCode encoding m, jsonCodecCode m]

/- A text without the newlines at its start. -/
def trimNewlines
    (text : String) :
    String :=
  String.ofList (text.toList.dropWhile (· == '\n'))

/-
  The code of all data types. The shared routines stand last,
  if there are any.
-/
def typesCode
    (sourceName : String)
    (encoding : Encoding)
    (s : ResolvedSchema) :
    String :=
  let (messages, table) :=
    (s.messages.mapM (messageCode encoding)).run
      RoutineTable.empty
  let routines :=
    if table.recorded.isEmpty then
      []
    else
      [trimNewlines table.code]
  lines
    ([header sourceName] ++ s.enums.map (enumCode encoding) ++
      messages.flatten ++ routines)

/- The generated code of a schema. -/
def generate
    (sourceName : String)
    (encoding : Encoding)
    (s : ResolvedSchema) :
    Output :=
  ⟨typesCode sourceName encoding s,
    servicesCode sourceName s.services⟩

end Emit

end TagWire
