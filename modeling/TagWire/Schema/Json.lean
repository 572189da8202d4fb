import TagWire.Json.Basic
import TagWire.Schema.Decl

/-
  This file defines the JSON form of a schema as it is
  written, with its places and its types spelled out.

  Key definitions include:
    * `ParsedSchema.toJson`
-/

namespace TagWire

/- The members that say where something stands. -/
def Position.toMembers
    (p : Position) :
    List (String × Json) :=
  [("line", .int p.line), ("column", .int p.column)]

/- An enum as JSON. -/
def EnumDecl.toJson
    (e : EnumDecl) :
    Json :=
  .object
    ([("name", .string e.name)] ++ e.position.toMembers ++
      [("variants", .array (e.variants.map .string))])

/- A field as JSON. -/
def Field.toJson
    (f : Field String) :
    Json :=
  .object
    ([("name", .string f.name)] ++ f.position.toMembers ++
      [
        ("seq", .int f.seq.toNat),
        ("optional", .bool f.optional),
        ("type", .string (f.type.signatureWith id))
      ])

/- A message as JSON. -/
def Message.toJson
    (m : Message String) :
    Json :=
  .object
    ([("name", .string m.name)] ++ m.position.toMembers ++
      [("fields", .array (m.fields.map Field.toJson))])

/- A method as JSON. -/
def Method.toJson
    (m : Method) :
    Json :=
  .object
    ([("name", .string m.name)] ++ m.position.toMembers ++
      [
        ("request", .string m.request),
        ("response", (m.response.map .string).getD .null)
      ])

/- A service as JSON. -/
def Service.toJson
    (s : Service) :
    Json :=
  .object
    ([("name", .string s.name)] ++ s.position.toMembers ++
      [("methods", .array (s.methods.map Method.toJson))])

/- A schema as JSON. -/
def ParsedSchema.toJson
    (s : ParsedSchema) :
    Json :=
  .object
    [
      ("enums", .array (s.enums.map EnumDecl.toJson)),
      ("messages", .array (s.messages.map Message.toJson)),
      ("services", .array (s.services.map Service.toJson))
    ]

end TagWire
