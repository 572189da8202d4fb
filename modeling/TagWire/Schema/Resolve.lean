import TagWire.Schema.Decl
import TagWire.Text.Quoted

/-
  This file defines when the names of a schema fit together,
  and the schema in which every reference knows what it
  refers to. A declaration may come after its uses.

  Key definitions include:
    * `SchemaError`
    * `firstRepeat?`
    * `NameClaim`
    * `Schema.nameClaims`
    * `Schema.resolveType`
    * `Schema.resolve`

  Correctness is proven by:
    * `firstRepeat?_eq_none_iff`
-/

namespace TagWire

open Text

------------------------------------------------------------
-- Errors
------------------------------------------------------------

/- The ways in which the names of a schema do not fit. -/
inductive SchemaError where
/- A name refers to nothing that could stand there. -/
| unresolvedType (name : String) (usedBy : String)
/- Two declarations need the same generated name. -/
| duplicateDefinition (name : String)
/- A map is keyed by floats. -/
| unsupportedMapKey (field : String) (key : ScalarKind)
/- A field needs a value of an enum that has none. -/
| emptyEnum (field : String) (name : String)
deriving DecidableEq, Repr

namespace SchemaError

/- The description of a schema error. -/
def message : SchemaError → String
| unresolvedType name usedBy =>
    s!"The type {quote name} used by {usedBy} " ++
      "is not declared as a message or enum"
| duplicateDefinition name =>
    s!"The type {quote name} is defined twice"
| unsupportedMapKey field key =>
    s!"Field {field} uses {key.name} as a map key; " ++
      "only integer and string keys are supported"
| emptyEnum field name =>
    s!"Field {field} uses enum {name}, which has no variants"

end SchemaError

------------------------------------------------------------
-- Repetitions
------------------------------------------------------------

section Repetition

variable {α κ : Type} [DecidableEq κ]

/-
  The first element whose key has been seen or is the key of
  an element before it.
-/
def firstRepeatAfter?
    (key : α → κ)
    (seen : List κ) :
    List α → Option α
| [] => none
| a :: rest =>
    if key a ∈ seen then
      some a
    else
      firstRepeatAfter? key (key a :: seen) rest

/- The first element with the key of an element before it. -/
def firstRepeat?
    (key : α → κ)
    (elements : List α) :
    Option α :=
  firstRepeatAfter? key [] elements

/-
  Nothing repeats exactly when the keys are distinct and none
  of them has been seen.
-/
theorem firstRepeatAfter?_eq_none_iff
    {key : α → κ}
    {seen : List κ}
    {elements : List α} :
    firstRepeatAfter? key seen elements = none ↔
      (elements.map key).Nodup ∧
        ∀ a ∈ elements, key a ∉ seen := by
  induction elements generalizing seen with
  | nil => simp [firstRepeatAfter?]
  | cons a rest ih =>
      by_cases hSeen : key a ∈ seen
      · simp [firstRepeatAfter?, hSeen]
      · rw [firstRepeatAfter?, if_neg hSeen, ih]
        simp only [List.map_cons, List.nodup_cons,
          List.mem_map, List.mem_cons, not_or,
          forall_eq_or_imp]
        constructor
        · rintro ⟨hNodup, hFresh⟩
          refine ⟨⟨?_, hNodup⟩, hSeen, fun b hb => ?_⟩
          · rintro ⟨b, hb, hKey⟩
            exact (hFresh b hb).1 hKey
          · exact (hFresh b hb).2
        · rintro ⟨⟨hHead, hNodup⟩, _, hFresh⟩
          refine ⟨hNodup, fun b hb => ⟨?_, hFresh b hb⟩⟩
          intro hKey
          exact hHead ⟨b, hb, hKey⟩

/- Nothing repeats exactly when the keys are distinct. -/
theorem firstRepeat?_eq_none_iff
    {key : α → κ}
    {elements : List α} :
    firstRepeat? key elements = none ↔
      (elements.map key).Nodup := by
  simp [firstRepeat?, firstRepeatAfter?_eq_none_iff]

end Repetition

------------------------------------------------------------
-- Claimed Names
------------------------------------------------------------

/- The generated names fall into types and functions. -/
inductive NameSort where
| type
| function
deriving DecidableEq, Repr

/-
  A generated name that a declaration needs, and the name by
  which an error speaks of it.
-/
structure NameClaim where
  sort : NameSort
  ident : String
  shown : String
deriving DecidableEq, Repr

namespace NameClaim

/- What has to be different in two claims. -/
def key
    (c : NameClaim) :
    NameSort × String :=
  (c.sort, c.ident)

/- The claim of an enum or a message. -/
def ofType
    (name : String) :
    NameClaim :=
  ⟨.type, Names.typeIdent name, name⟩

/-
  The claims of a service: its raw form, its adapter, the
  service itself, and the function that registers it.
-/
def ofService
    (name : String) :
    List NameClaim :=
  [
    ⟨.type, Names.handlerIdent name, Names.handlerIdent name⟩,
    ⟨.type, Names.adapterIdent name, Names.adapterIdent name⟩,
    ⟨.type, Names.serviceIdent name, Names.serviceIdent name⟩,
    ⟨.function, Names.registerIdent name,
      Names.registerIdent name⟩
  ]

end NameClaim

namespace Schema

/- The claims of all declarations, in the order checked. -/
def nameClaims
    {ρ : Type}
    (s : Schema ρ) :
    List NameClaim :=
  s.enums.map (NameClaim.ofType ·.name) ++
    s.messages.map (NameClaim.ofType ·.name) ++
    s.services.flatMap (NameClaim.ofService ·.name)

/- Refuse two declarations that claim the same name. -/
def checkClaims
    (claims : List NameClaim) :
    Except SchemaError Unit :=
  match firstRepeat? NameClaim.key claims with
  | some c => .error (.duplicateDefinition c.shown)
  | none => .ok ()

/- Refuse two members of an owner with the same name. -/
def checkMembers
    (owner : String)
    (idents : List String) :
    Except SchemaError Unit :=
  match firstRepeat? id idents with
  | some ident =>
      .error (.duplicateDefinition s!"{owner}.{ident}")
  | none => .ok ()

------------------------------------------------------------
-- References
------------------------------------------------------------

/- Whether a message of exactly this name is declared. -/
def declaresMessage
    (s : ParsedSchema)
    (name : String) :
    Bool :=
  s.messages.any (·.name == name)

/- What a type name in a field refers to. -/
def reference
    (s : ParsedSchema)
    (usedBy : String)
    (name : String) :
    Except SchemaError TypeRef :=
  let declared := Names.firstUpper name
  if s.declaresMessage declared then
    .ok (.message declared)
  else
    match s.enums.find? (·.name == declared) with
    | some e =>
        if e.variants.isEmpty then
          .error (.emptyEnum usedBy declared)
        else
          .ok (.enum declared)
    | none => .error (.unresolvedType name usedBy)

/- The message that a method speaks of. -/
def messageReference
    (s : ParsedSchema)
    (usedBy : String)
    (name : String) :
    Except SchemaError String :=
  let declared := Names.firstUpper name
  if s.declaresMessage declared then
    .ok declared
  else
    .error (.unresolvedType name usedBy)

/- A type with its references resolved. -/
def resolveType
    (s : ParsedSchema)
    (usedBy : String) :
    TypeExpr String → Except SchemaError ResolvedType
| .scalar kind => .ok (.scalar kind)
| .named name => do
    let r ← s.reference usedBy name
    return .named r
| .list element => do
    let element ← resolveType s usedBy element
    return .list element
| .map key value =>
    if key.isMapKey then do
      let value ← resolveType s usedBy value
      return .map key value
    else
      .error (.unsupportedMapKey usedBy key)

------------------------------------------------------------
-- Resolution
------------------------------------------------------------

/- A field with its type resolved. -/
def resolveField
    (s : ParsedSchema)
    (owner : String)
    (f : Field String) :
    Except SchemaError (Field TypeRef) := do
  let type ← s.resolveType s!"{owner}.{f.name}" f.type
  return ⟨f.name, f.seq, f.optional, type, f.position⟩

/- A message with its fields resolved. -/
def resolveMessage
    (s : ParsedSchema)
    (m : Message String) :
    Except SchemaError (Message TypeRef) := do
  checkMembers m.name
    (m.fields.map (Names.fieldIdent ·.name))
  let fields ← m.fields.mapM (s.resolveField m.name)
  return ⟨m.name, fields, m.position⟩

/- A method with the full names of its messages. -/
def resolveMethod
    (s : ParsedSchema)
    (owner : String)
    (m : Method) :
    Except SchemaError Method := do
  let usedBy := s!"{owner}.{m.name}"
  let request ← s.messageReference usedBy m.request
  let response ←
    m.response.mapM (s.messageReference usedBy)
  return ⟨m.name, request, response, m.position⟩

/- A service with its methods resolved. -/
def resolveService
    (s : ParsedSchema)
    (service : Service) :
    Except SchemaError Service := do
  checkMembers service.name
    (service.methods.map (Names.methodIdent ·.name))
  let methods ←
    service.methods.mapM (s.resolveMethod service.name)
  return ⟨service.name, methods, service.position⟩

/- Refuse two variants of an enum with the same name. -/
def checkVariants
    (e : EnumDecl) :
    Except SchemaError Unit :=
  checkMembers e.name (e.variants.map Names.typeIdent)

/- A schema with its references resolved. -/
def resolve
    (s : ParsedSchema) :
    Except SchemaError ResolvedSchema := do
  checkClaims s.nameClaims
  s.enums.forM checkVariants
  let messages ← s.messages.mapM s.resolveMessage
  let services ← s.services.mapM s.resolveService
  return ⟨s.enums, messages, services⟩

end Schema

end TagWire
