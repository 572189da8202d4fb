import TagWire.Typed.JsonMessage

/-
  This file defines the messages of a directory of contacts,
  carried as JSON.

  Key definitions include:
    * `Sample.Kind`
    * `Sample.Address`
    * `Sample.Contact`
    * `Sample.Lookup`
-/

namespace TagWire

open Text

namespace Sample

------------------------------------------------------------
-- Kinds
------------------------------------------------------------

/- The kinds of contact. -/
inductive Kind where
| personal
| work
deriving DecidableEq, Inhabited, Repr

namespace Kind

/- The name of a kind. -/
def name : Kind → String
| personal => "Personal"
| work => "Work"

/- The kind of a name. -/
def ofName?
    (text : String) :
    Option Kind :=
  [personal, work].find? (fun k => k.name == text)

end Kind

------------------------------------------------------------
-- Addresses
------------------------------------------------------------

/- Where a contact is found. -/
structure Address where
  city : String
  zip : NumKind.Word (.int .uint32)
deriving DecidableEq, Inhabited, Repr

namespace Address

/- A number of four bytes from its JSON form. -/
def zip?
    (j : JsonPart) :
    Option (NumKind.Word (.int .uint32)) := do
  let n ← j.natural?
  IntKind.word? .uint32 n

/- An address from its JSON form. -/
def ofJson?
    (j : JsonPart) :
    Option Address := do
  match ← j.fields? ["city", "zip"] 2 with
  | [some city, some zip] => do
      let city ← city.string?
      let zip ← zip? zip
      return ⟨city, zip⟩
  | _ => none

/- The JSON form of an address. -/
def toJson
    (a : Address) :
    Json :=
  .object
    [("city", .string a.city), ("zip", .int a.zip.toNat)]

/- An address as a diagnostic shows it. -/
def inspect
    (a : Address) :
    String :=
  shownParts "Address"
    [
      ("city", Text.inspect a.city),
      ("zip", NumKind.inspect (.int .uint32) a.zip)
    ]

instance : JsonMessage Address :=
  ⟨toJson, ofJson?, inspect⟩

end Address

------------------------------------------------------------
-- Contacts
------------------------------------------------------------

/- A person, with the ways of reaching that person. -/
structure Contact where
  name : String
  kind : Kind
  phones : Table String String
  address : Option Address
deriving DecidableEq, Inhabited, Repr

namespace Contact

/- Phone numbers from their JSON form. -/
def phones? : JsonPart → Option (Table String String)
| .object members => do
    let members ← JsonPart.textMembers? members
    let phones ← members.mapM fun (key, part) => do
      let text ← part.string?
      return (key, text)
    return Table.ofList phones
| _ => none

/- An address, if it is there and is not null. -/
def address? : Option JsonPart → Option (Option Address)
| none => some none
| some part =>
    match part.nonNull? with
    | none => some none
    | some part => (Address.ofJson? part).map some

/- A contact from its JSON form. -/
def ofJson?
    (j : JsonPart) :
    Option Contact := do
  match ← j.fields? ["name", "kind", "phones", "address"] 4 with
  | [some name, some kind, some phones, address] => do
      let name ← name.string?
      let variant ← kind.variant?
      let kind ← Kind.ofName? variant
      let phones ← phones? phones
      let address ← address? address
      return ⟨name, kind, phones, address⟩
  | _ => none

/- The JSON form of a contact. -/
def toJson
    (c : Contact) :
    Json :=
  let address :=
    match c.address with
    | some a => a.toJson
    | none => .null
  .object
    [
      ("name", .string c.name),
      ("kind", .string c.kind.name),
      ("phones",
        .object
          (c.phones.entries.map fun (k, v) => (k, .string v))),
      ("address", address)
    ]

/- A contact as a diagnostic shows it. -/
def inspect
    (c : Contact) :
    String :=
  let phones :=
    c.phones.entries.map fun (k, v) =>
      Text.inspect k ++ ": " ++ Text.inspect v
  let address :=
    match c.address with
    | some a => s!"Some({a.inspect})"
    | none => "None"
  shownParts "Contact"
    [
      ("name", Text.inspect c.name),
      ("kind", c.kind.name),
      ("phones", bracketed leftBrace rightBrace phones),
      ("address", address)
    ]

instance : JsonMessage Contact :=
  ⟨toJson, ofJson?, inspect⟩

end Contact

------------------------------------------------------------
-- Lookups
------------------------------------------------------------

/- The name of the contact that is wanted. -/
structure Lookup where
  name : String
deriving DecidableEq, Inhabited, Repr

namespace Lookup

/- A lookup from its JSON form. -/
def ofJson?
    (j : JsonPart) :
    Option Lookup := do
  match ← j.fields? ["name"] 1 with
  | [some name] => do
      let name ← name.string?
      return ⟨name⟩
  | _ => none

/- The JSON form of a lookup. -/
def toJson
    (l : Lookup) :
    Json :=
  .object [("name", .string l.name)]

/- A lookup as a diagnostic shows it. -/
def inspect
    (l : Lookup) :
    String :=
  shownParts "Lookup" [("name", Text.inspect l.name)]

instance : JsonMessage Lookup :=
  ⟨toJson, ofJson?, inspect⟩

end Lookup

end Sample

end TagWire
