import TagWire.Names
import TagWire.Schema.Token

/-
  This file defines the declarations of a schema. Types refer
  to declarations by name until they are resolved, and by
  name and sort from then on, so a schema is generic in what
  a reference is.

  Key definitions include:
    * `TypeExpr`
    * `TypeExpr.signature`
    * `EnumDecl`
    * `Field`
    * `Message`
    * `Method`
    * `Service`
    * `Schema`
    * `Declaration`
    * `TypeRef`
    * `Schema.ofDeclarations`
    * `Schema.message?`
    * `Schema.enum?`
-/

namespace TagWire

------------------------------------------------------------
-- Types
------------------------------------------------------------

/- The type of a field, over references of some sort. -/
inductive TypeExpr (ρ : Type) where
| scalar (kind : ScalarKind)
| named (reference : ρ)
| list (element : TypeExpr ρ)
| map (key : ScalarKind) (value : TypeExpr ρ)
deriving DecidableEq, Repr

namespace TypeExpr

/-
  How a type is written, given how its references are. The
  value type of a map has no closing bracket.
-/
def signatureWith
    {ρ : Type}
    (nameOf : ρ → String) :
    TypeExpr ρ → String
| scalar kind => kind.name
| named reference => nameOf reference
| list element =>
    "list[" ++ signatureWith nameOf element ++ "]"
| map key value =>
    "map[" ++ key.name ++ "]" ++ signatureWith nameOf value

end TypeExpr

/- A reference whose sort of declaration is known. -/
inductive TypeRef where
| enum (name : String)
| message (name : String)
deriving DecidableEq, Repr

namespace TypeRef

/- The name of the declaration referred to. -/
def name : TypeRef → String
| enum name => name
| message name => name

end TypeRef

/- A type with every reference resolved. -/
abbrev ResolvedType : Type :=
  TypeExpr TypeRef

namespace ResolvedType

/- How a resolved type is written. -/
def signature
    (type : ResolvedType) :
    String :=
  type.signatureWith TypeRef.name

/- Whether a value of the type is held by reference. -/
def isByReference : ResolvedType → Bool
| .named (.message _) => true
| _ => false

end ResolvedType

------------------------------------------------------------
-- Declarations
------------------------------------------------------------

/- An enum. Its first variant is the zero value. -/
structure EnumDecl where
  name : String
  variants : List String
  position : Position
deriving DecidableEq, Repr

/- A field of a message. -/
structure Field (ρ : Type) where
  name : String
  seq : UInt8
  optional : Bool
  type : TypeExpr ρ
  position : Position
deriving DecidableEq, Repr

/- A message. Its fields are encoded in this order. -/
structure Message (ρ : Type) where
  name : String
  fields : List (Field ρ)
  position : Position
deriving DecidableEq, Repr

/- A method of a service, with or without a reply. -/
structure Method where
  name : String
  request : String
  response : Option String
  position : Position
deriving DecidableEq, Repr

/- A service. -/
structure Service where
  name : String
  methods : List Method
  position : Position
deriving DecidableEq, Repr

/- The declarations of a schema, each sort in text order. -/
structure Schema (ρ : Type) where
  enums : List EnumDecl
  messages : List (Message ρ)
  services : List Service
deriving DecidableEq, Repr

/- A declaration of any sort. -/
inductive Declaration (ρ : Type) where
| enum (e : EnumDecl)
| message (m : Message ρ)
| service (s : Service)
deriving DecidableEq, Repr

namespace Declaration

variable {ρ : Type}

/- The enum that a declaration is. -/
def enum? : Declaration ρ → Option EnumDecl
| enum e => some e
| _ => none

/- The message that a declaration is. -/
def message? : Declaration ρ → Option (Message ρ)
| message m => some m
| _ => none

/- The service that a declaration is. -/
def service? : Declaration ρ → Option Service
| service s => some s
| _ => none

end Declaration

/- A schema as it is written. -/
abbrev ParsedSchema : Type :=
  Schema String

/- A schema with every reference resolved. -/
abbrev ResolvedSchema : Type :=
  Schema TypeRef

namespace Schema

variable {ρ : Type}

/- The schema that declares nothing. -/
def empty : Schema ρ :=
  ⟨[], [], []⟩

/- The schema of some declarations, each sort in order. -/
def ofDeclarations
    (ds : List (Declaration ρ)) :
    Schema ρ :=
  ⟨ds.filterMap Declaration.enum?,
    ds.filterMap Declaration.message?,
    ds.filterMap Declaration.service?⟩

/- The message that a name refers to. -/
def message?
    (s : Schema ρ)
    (name : String) :
    Option (Message ρ) :=
  s.messages.find? (fun m => m.name == Names.firstUpper name)

/- The enum that a name refers to. -/
def enum?
    (s : Schema ρ)
    (name : String) :
    Option EnumDecl :=
  s.enums.find? (fun e => e.name == Names.firstUpper name)

end Schema

end TagWire
