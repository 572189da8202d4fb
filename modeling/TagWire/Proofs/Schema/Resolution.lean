import TagWire.Proofs.Schema.WellFormed
import TagWire.Sample.Schemas

/-
  When the names of a schema fit together, said without any
  order in which they are checked, and what the schema is then
  resolved to.

  Main declarations:
    * `TypeExpr.Part`
    * `TypeExpr.refer`
    * `Schema.Resolvable`
    * `Schema.resolution`
    * `Schema.resolve_eq_ok_iff`
    * `Schema.resolve_exact`
-/

------------------------------------------------------------
-- Parts of Types
------------------------------------------------------------

namespace TagWire

namespace TypeExpr

variable {ρ σ : Type}

/- A type stands somewhere in another one, itself included. -/
inductive Part
    (inner : TypeExpr ρ) :
    TypeExpr ρ → Prop
| refl : Part inner inner
| element
    {element : TypeExpr ρ}
    (h : Part inner element) :
    Part inner (.list element)
| value
    {key : ScalarKind}
    {value : TypeExpr ρ}
    (h : Part inner value) :
    Part inner (.map key value)

variable {inner : TypeExpr ρ}

theorem part_scalar_iff
    {kind : ScalarKind} :
    Part inner (.scalar kind) ↔ inner = .scalar kind := by
  constructor
  · intro h
    cases h
    rfl
  · intro h
    rcases h with rfl
    exact .refl

theorem part_named_iff
    {reference : ρ} :
    Part inner (.named reference) ↔
      inner = .named reference := by
  constructor
  · intro h
    cases h
    rfl
  · intro h
    rcases h with rfl
    exact .refl

/- The parts of a list are itself and those of its elements. -/
theorem part_list_iff
    {element : TypeExpr ρ} :
    Part inner (.list element) ↔
      inner = .list element ∨ Part inner element := by
  constructor
  · intro h
    cases h with
    | refl => exact Or.inl rfl
    | element h => exact Or.inr h
  · intro h
    rcases h with rfl | h
    · exact .refl
    · exact .element h

/- The parts of a map are itself and those of its values. -/
theorem part_map_iff
    {key : ScalarKind}
    {value : TypeExpr ρ} :
    Part inner (.map key value) ↔
      inner = .map key value ∨ Part inner value := by
  constructor
  · intro h
    cases h with
    | refl => exact Or.inl rfl
    | value h => exact Or.inr h
  · intro h
    rcases h with rfl | h
    · exact .refl
    · exact .value h

/- A type with every reference replaced. -/
def refer
    (f : ρ → σ) :
    TypeExpr ρ → TypeExpr σ
| scalar kind => .scalar kind
| named reference => .named (f reference)
| list element => .list (refer f element)
| map key value => .map key (refer f value)

end TypeExpr

namespace Schema

/- What stands in a closed type is closed. -/
theorem Closed.part
    {s : ResolvedSchema}
    {inner type : ResolvedType}
    (hPart : inner.Part type)
    (h : s.Closed type) :
    s.Closed inner := by
  induction hPart with
  | refl => exact h
  | element _ ih => exact ih h
  | value _ ih => exact ih h.2

end Schema

end TagWire

------------------------------------------------------------
-- Schemas That Fit Together
------------------------------------------------------------

namespace TagWire

namespace Schema

/-
  The names of types in the generated code: one for each enum
  and message, and three for each service.
-/
def typeIdents
    (s : ParsedSchema) :
    List String :=
  s.enums.map (Names.typeIdent ·.name) ++
    s.messages.map (Names.typeIdent ·.name) ++
    s.services.flatMap fun service =>
      [
        Names.handlerIdent service.name,
        Names.adapterIdent service.name,
        Names.serviceIdent service.name
      ]

/- The names of the functions that register services. -/
def registerIdents
    (s : ParsedSchema) :
    List String :=
  s.services.map (Names.registerIdent ·.name)

/- A name is the name of a message, but for its first letter. -/
def NamesMessage
    (s : ParsedSchema)
    (name : String) : Prop :=
  ∃ m ∈ s.messages, m.name = Names.firstUpper name

/- A name is the name of an enum that has a variant. -/
def NamesEnum
    (s : ParsedSchema)
    (name : String) : Prop :=
  ∃ e ∈ s.enums,
    e.name = Names.firstUpper name ∧ e.variants ≠ []

/-
  The names of a schema fit together. Generated names are
  distinct, types refer to messages and to enums that have a
  variant, maps are not keyed by floats, and methods speak of
  messages.
-/
structure Resolvable
    (s : ParsedSchema) : Prop where
  types : s.typeIdents.Nodup
  registers : s.registerIdents.Nodup
  variants :
    ∀ e ∈ s.enums, (e.variants.map Names.typeIdent).Nodup
  fields :
    ∀ m ∈ s.messages,
      (m.fields.map (Names.fieldIdent ·.name)).Nodup
  methods :
    ∀ service ∈ s.services,
      (service.methods.map (Names.methodIdent ·.name)).Nodup
  references :
    ∀ m ∈ s.messages, ∀ f ∈ m.fields, ∀ name,
      TypeExpr.Part (.named name) f.type →
        s.NamesMessage name ∨ s.NamesEnum name
  keys :
    ∀ m ∈ s.messages, ∀ f ∈ m.fields, ∀ key value,
      TypeExpr.Part (.map key value) f.type →
        ∀ kind, key ≠ .num (.float kind)
  requests :
    ∀ service ∈ s.services, ∀ method ∈ service.methods,
      s.NamesMessage method.request
  responses :
    ∀ service ∈ s.services, ∀ method ∈ service.methods,
      ∀ name ∈ method.response, s.NamesMessage name

/- What a type name refers to, if it refers to anything. -/
def referent
    (s : ParsedSchema)
    (name : String) :
    TypeRef :=
  if s.declaresMessage (Names.firstUpper name) then
    .message (Names.firstUpper name)
  else
    .enum (Names.firstUpper name)

/- A message in which each name is replaced by its referent. -/
def resolvedMessage
    (s : ParsedSchema)
    (m : Message String) :
    Message TypeRef where
  name := m.name
  fields :=
    m.fields.map fun f =>
      ⟨f.name, f.seq, f.optional, f.type.refer s.referent,
        f.position⟩
  position := m.position

/- A service whose messages are named as they are declared. -/
def resolvedService
    (service : Service) :
    Service where
  name := service.name
  methods :=
    service.methods.map fun method =>
      ⟨method.name, Names.firstUpper method.request,
        method.response.map Names.firstUpper,
        method.position⟩
  position := service.position

/- All declarations in order, each one resolved. -/
def resolution
    (s : ParsedSchema) :
    ResolvedSchema where
  enums := s.enums
  messages := s.messages.map s.resolvedMessage
  services := s.services.map resolvedService

/- Everything referred to is found under just its name. -/
structure FindsReferents
    (t : ResolvedSchema) : Prop where
  messages :
    ∀ m ∈ t.messages, ∀ f ∈ m.fields, ∀ name,
      TypeExpr.Part (.named (.message name)) f.type →
        ∃ found, t.message? name = some found ∧
          found.name = name
  enums :
    ∀ m ∈ t.messages, ∀ f ∈ m.fields, ∀ name,
      TypeExpr.Part (.named (.enum name)) f.type →
        ∃ found, t.enum? name = some found ∧
          found.name = name
  requests :
    ∀ service ∈ t.services, ∀ method ∈ service.methods,
      ∃ found, t.message? method.request = some found ∧
        found.name = method.request
  responses :
    ∀ service ∈ t.services, ∀ method ∈ service.methods,
      ∀ name ∈ method.response,
        ∃ found, t.message? name = some found ∧
          found.name = name

end Schema

end TagWire

------------------------------------------------------------
-- Distinct Names
------------------------------------------------------------

namespace TagWire

namespace Schema

/- Names of two sorts are distinct if those of each sort are. -/
private theorem nodup_iff_sorts
    {keys : List (NameSort × String)}
    {types functions : List String}
    (hTypes :
      keys.filter (·.1 = .type) = types.map (NameSort.type, ·))
    (hFunctions :
      keys.filter (fun k => !decide (k.1 = .type)) =
        functions.map (NameSort.function, ·)) :
    keys.Nodup ↔ types.Nodup ∧ functions.Nodup := by
  have hPerm :=
    List.filter_append_perm (fun k => decide (k.1 = .type)) keys
  have hInjective (sort : NameSort) :
      Function.Injective fun ident : String => (sort, ident) :=
    fun _ _ h => (Prod.mk.inj h).2
  rw [← hPerm.nodup_iff, hTypes, hFunctions,
    List.nodup_append, List.nodup_map_iff (hInjective _),
    List.nodup_map_iff (hInjective _)]
  simp

/- Claims are distinct if the names of each sort are. -/
theorem nodup_nameClaims_iff
    {s : ParsedSchema} :
    (s.nameClaims.map NameClaim.key).Nodup ↔
      s.typeIdents.Nodup ∧ s.registerIdents.Nodup := by
  apply nodup_iff_sorts
  · simp [nameClaims, typeIdents, NameClaim.key,
      NameClaim.ofType, NameClaim.ofService,
      List.filter_flatMap, List.map_flatMap, Function.comp_def,
      List.filter_map]
  · simp [nameClaims, registerIdents, NameClaim.key,
      NameClaim.ofType, NameClaim.ofService,
      List.filter_flatMap, List.map_flatMap, Function.comp_def,
      List.filter_map]
    exact List.map_eq_flatMap.symm

/- No two enums share a name if no generated names do. -/
theorem nodup_enumNames_of_typeIdents
    {s : ParsedSchema}
    (h : s.typeIdents.Nodup) :
    (s.enums.map EnumDecl.name).Nodup := by
  rw [typeIdents, List.append_assoc] at h
  apply List.Nodup.of_map Names.typeIdent
  rw [List.map_map]
  exact (List.nodup_append.mp h).1

end Schema

end TagWire

------------------------------------------------------------
-- Resolution
------------------------------------------------------------

namespace TagWire

namespace Schema

variable {s : ParsedSchema}
variable {usedBy : String}

theorem declaresMessage_iff
    {name : String} :
    s.declaresMessage (Names.firstUpper name) = true ↔
      s.NamesMessage name := by
  simp [declaresMessage, NamesMessage]

/-
  A name resolves to its referent. An enum is looked up by
  name, so that no other one with the name may hide it.
-/
theorem reference_eq_ok_iff
    (hEnums : (s.enums.map EnumDecl.name).Nodup)
    {name : String}
    {r : TypeRef} :
    s.reference usedBy name = .ok r ↔
      (s.NamesMessage name ∨ s.NamesEnum name) ∧
        r = s.referent name := by
  unfold reference referent
  rw [← declaresMessage_iff]
  cases hDeclared :
      s.declaresMessage (Names.firstUpper name) with
  | true => simp [hDeclared, eq_comm]
  | false =>
      simp only [hDeclared, Bool.false_eq_true, if_false,
        false_or]
      cases hFind :
          s.enums.find? (·.name == Names.firstUpper name) with
      | none =>
          have hNone : ¬ s.NamesEnum name := by
            intro h
            rcases h with ⟨e, he, hName, _⟩
            have hOther := List.find?_eq_none.mp hFind e he
            exact hOther (beq_iff_eq.mpr hName)
          simp [hNone]
      | some e =>
          have hMem := List.mem_of_find?_eq_some hFind
          have hFound := List.find?_some hFind
          have hName : e.name = Names.firstUpper name :=
            eq_of_beq hFound
          have hIff :
              s.NamesEnum name ↔ e.variants ≠ [] := by
            constructor
            · intro h
              rcases h with ⟨e', he', hName', hVariants⟩
              rwa [List.inj_on_of_nodup_map hEnums hMem he'
                (hName.trans hName'.symm)]
            · exact fun h => ⟨e, hMem, hName, h⟩
          by_cases hVariants : e.variants = []
          · simp [hIff, hVariants]
          · simp only [hIff, List.isEmpty_iff, hVariants,
              if_false, Except.ok.injEq, ne_eq,
              not_false_iff, true_and]
            exact eq_comm

theorem messageReference_eq_ok_iff
    {name declared : String} :
    s.messageReference usedBy name = .ok declared ↔
      s.NamesMessage name ∧
        declared = Names.firstUpper name := by
  unfold messageReference
  rw [← declaresMessage_iff]
  cases hDeclared :
      s.declaresMessage (Names.firstUpper name) with
  | true => simp [hDeclared, eq_comm]
  | false => simp [hDeclared]

/-
  All names in a type refer to something, and no map in it is
  keyed by floats.
-/
def TypeResolvable
    (s : ParsedSchema)
    (type : TypeExpr String) : Prop :=
  (∀ name, TypeExpr.Part (.named name) type →
    s.NamesMessage name ∨ s.NamesEnum name) ∧
  (∀ key value, TypeExpr.Part (.map key value) type →
    ∀ kind, key ≠ .num (.float kind))

theorem isMapKey_iff
    {key : ScalarKind} :
    key.isMapKey = true ↔
      ∀ kind, key ≠ .num (.float kind) := by
  cases key with
  | string => simp [ScalarKind.isMapKey, ScalarKind.isFloat]
  | num kind =>
      cases kind <;>
        simp [ScalarKind.isMapKey, ScalarKind.isFloat]

/- A type resolves when all its parts do. -/
theorem resolveType_eq_ok_iff
    (hEnums : (s.enums.map EnumDecl.name).Nodup)
    {type : TypeExpr String}
    {resolved : ResolvedType} :
    s.resolveType usedBy type = .ok resolved ↔
      s.TypeResolvable type ∧
        resolved = type.refer s.referent := by
  unfold TypeResolvable
  induction type generalizing resolved with
  | scalar kind =>
      simp [resolveType, TypeExpr.part_scalar_iff,
        TypeExpr.refer, eq_comm]
  | named name =>
      simp only [resolveType, Outcome.bind_eq_ok_iff,
        Outcome.pure_eq_ok_iff, reference_eq_ok_iff hEnums,
        TypeExpr.part_named_iff, TypeExpr.refer]
      constructor
      · intro h
        rcases h with ⟨_, ⟨hName, rfl⟩, rfl⟩
        refine ⟨⟨?_, by simp⟩, rfl⟩
        intro name' hSame
        cases hSame
        exact hName
      · intro h
        rcases h with ⟨⟨hNames, _⟩, rfl⟩
        exact ⟨_, ⟨hNames name rfl, rfl⟩, rfl⟩
  | list element ih =>
      simp only [resolveType, Outcome.bind_eq_ok_iff,
        Outcome.pure_eq_ok_iff, ih, TypeExpr.part_list_iff,
        TypeExpr.refer, reduceCtorEq, false_or]
      constructor
      · intro h
        rcases h with ⟨_, ⟨hParts, rfl⟩, rfl⟩
        exact ⟨hParts, rfl⟩
      · intro h
        rcases h with ⟨hParts, rfl⟩
        exact ⟨_, ⟨hParts, rfl⟩, rfl⟩
  | map key value ih =>
      simp only [TypeExpr.part_map_iff, TypeExpr.refer,
        reduceCtorEq, false_or]
      by_cases hKey : key.isMapKey = true
      · simp only [resolveType, if_pos hKey,
          Outcome.bind_eq_ok_iff, Outcome.pure_eq_ok_iff, ih]
        constructor
        · intro h
          rcases h with ⟨_, ⟨⟨hNames, hKeys⟩, rfl⟩, rfl⟩
          refine ⟨⟨hNames, ?_⟩, rfl⟩
          intro key' value' hPart
          rcases hPart with hSame | hPart
          · cases hSame
            exact isMapKey_iff.mp hKey
          · exact hKeys key' value' hPart
        · intro h
          rcases h with ⟨⟨hNames, hKeys⟩, rfl⟩
          refine ⟨_, ⟨⟨hNames, ?_⟩, rfl⟩, rfl⟩
          exact fun key' value' hPart =>
            hKeys key' value' (Or.inr hPart)
      · have hFloat :
            ¬ ∀ kind, key ≠ .num (.float kind) :=
          fun h => hKey (isMapKey_iff.mpr h)
        simp only [resolveType, if_neg hKey, reduceCtorEq,
          false_iff, not_and]
        intro h
        exact absurd (h.2 key value (Or.inl rfl)) hFloat

/- A message resolves when its fields are apart and resolve. -/
theorem resolveMessage_eq_ok_iff
    (hEnums : (s.enums.map EnumDecl.name).Nodup)
    {m : Message String}
    {resolved : Message TypeRef} :
    s.resolveMessage m = .ok resolved ↔
      ((m.fields.map (Names.fieldIdent ·.name)).Nodup ∧
        ∀ f ∈ m.fields, s.TypeResolvable f.type) ∧
      resolved = s.resolvedMessage m := by
  have hField :
      ∀ f ∈ m.fields, ∀ g,
        s.resolveField m.name f = .ok g ↔
          s.TypeResolvable f.type ∧
            g = ⟨f.name, f.seq, f.optional,
              f.type.refer s.referent, f.position⟩ := by
    intro f _ g
    simp only [resolveField, Outcome.bind_eq_ok_iff,
      Outcome.pure_eq_ok_iff, resolveType_eq_ok_iff hEnums]
    constructor
    · intro h
      rcases h with ⟨_, ⟨hType, rfl⟩, rfl⟩
      exact ⟨hType, rfl⟩
    · intro h
      rcases h with ⟨hType, rfl⟩
      exact ⟨_, ⟨hType, rfl⟩, rfl⟩
  simp only [resolveMessage, Outcome.bind_eq_ok_iff,
    Outcome.pure_eq_ok_iff, Outcome.mapM_eq_ok_iff_map hField]
  constructor
  · intro h
    rcases h with ⟨_, hNames, _, ⟨hTypes, rfl⟩, rfl⟩
    exact ⟨⟨checkMembers_eq_ok_iff.mp hNames, hTypes⟩, rfl⟩
  · intro h
    rcases h with ⟨⟨hNames, hTypes⟩, rfl⟩
    exact ⟨(), checkMembers_eq_ok_iff.mpr hNames, _,
      ⟨hTypes, rfl⟩, rfl⟩

/- A service resolves when its methods are apart and resolve. -/
theorem resolveService_eq_ok_iff
    {service resolved : Service} :
    s.resolveService service = .ok resolved ↔
      ((service.methods.map (Names.methodIdent ·.name)).Nodup ∧
        ∀ method ∈ service.methods,
          s.NamesMessage method.request ∧
            ∀ name ∈ method.response, s.NamesMessage name) ∧
      resolved = resolvedService service := by
  have hMethod :
      ∀ method ∈ service.methods, ∀ method',
        s.resolveMethod service.name method = .ok method' ↔
          (s.NamesMessage method.request ∧
            ∀ name ∈ method.response, s.NamesMessage name) ∧
          method' =
            ⟨method.name, Names.firstUpper method.request,
              method.response.map Names.firstUpper,
              method.position⟩ := by
    intro method _ method'
    have hResponse :
        ∀ usedBy response,
          method.response.mapM (s.messageReference usedBy) =
              .ok response ↔
            (∀ name ∈ method.response, s.NamesMessage name) ∧
              response =
                method.response.map Names.firstUpper :=
      fun _ _ => Outcome.option_mapM_eq_ok_iff_map
        fun _ _ _ => messageReference_eq_ok_iff
    simp only [resolveMethod, Outcome.bind_eq_ok_iff,
      Outcome.pure_eq_ok_iff, messageReference_eq_ok_iff,
      hResponse]
    constructor
    · intro h
      rcases h with
        ⟨_, ⟨hRequest, rfl⟩, _, ⟨hReply, rfl⟩, rfl⟩
      exact ⟨⟨hRequest, hReply⟩, rfl⟩
    · intro h
      rcases h with ⟨⟨hRequest, hReply⟩, rfl⟩
      exact ⟨_, ⟨hRequest, rfl⟩, _, ⟨hReply, rfl⟩, rfl⟩
  simp only [resolveService, Outcome.bind_eq_ok_iff,
    Outcome.pure_eq_ok_iff, Outcome.mapM_eq_ok_iff_map hMethod]
  constructor
  · intro h
    rcases h with ⟨_, hNames, _, ⟨hMethods, rfl⟩, rfl⟩
    exact ⟨⟨checkMembers_eq_ok_iff.mp hNames, hMethods⟩, rfl⟩
  · intro h
    rcases h with ⟨⟨hNames, hMethods⟩, rfl⟩
    exact ⟨(), checkMembers_eq_ok_iff.mpr hNames, _,
      ⟨hMethods, rfl⟩, rfl⟩

/- Resolution succeeds exactly if all names fit together. -/
theorem resolve_eq_ok_iff
    {t : ResolvedSchema} :
    s.resolve = .ok t ↔ s.Resolvable ∧ t = s.resolution := by
  simp only [resolve, Outcome.bind_eq_ok_iff,
    Outcome.pure_eq_ok_iff]
  constructor
  · intro h
    rcases h with
      ⟨_, hClaims, _, hVariants, messages, hMessages, services,
       hServices, rfl⟩
    rcases
        nodup_nameClaims_iff.mp
          (checkClaims_eq_ok_iff.mp hClaims) with
      ⟨hTypes, hRegisters⟩
    have hEnums := nodup_enumNames_of_typeIdents hTypes
    rcases
        (Outcome.mapM_eq_ok_iff_map fun m _ _ =>
          resolveMessage_eq_ok_iff hEnums).mp hMessages with
      ⟨hFields, rfl⟩
    rcases
        (Outcome.mapM_eq_ok_iff_map fun service _ _ =>
          resolveService_eq_ok_iff).mp hServices with
      ⟨hMethods, rfl⟩
    refine ⟨⟨hTypes, hRegisters, ?_, ?_, ?_, ?_, ?_, ?_, ?_⟩,
      rfl⟩
    · intro e he
      exact checkMembers_eq_ok_iff.mp
        (Outcome.forM_eq_ok_iff.mp hVariants e he)
    · exact fun m hm => (hFields m hm).1
    · exact fun service hService => (hMethods service hService).1
    · exact fun m hm f hf => ((hFields m hm).2 f hf).1
    · exact fun m hm f hf => ((hFields m hm).2 f hf).2
    · exact fun service hService method hMethod =>
        ((hMethods service hService).2 method hMethod).1
    · exact fun service hService method hMethod =>
        ((hMethods service hService).2 method hMethod).2
  · intro h
    rcases h with ⟨hs, rfl⟩
    have hEnums := nodup_enumNames_of_typeIdents hs.types
    refine ⟨(), ?_, (), ?_, s.messages.map s.resolvedMessage,
      ?_, s.services.map resolvedService, ?_, rfl⟩
    · exact checkClaims_eq_ok_iff.mpr
        (nodup_nameClaims_iff.mpr ⟨hs.types, hs.registers⟩)
    · rw [Outcome.forM_eq_ok_iff]
      intro e he
      exact checkMembers_eq_ok_iff.mpr (hs.variants e he)
    · refine
        (Outcome.mapM_eq_ok_iff_map fun m _ _ =>
          resolveMessage_eq_ok_iff hEnums).mpr ⟨?_, rfl⟩
      intro m hm
      exact ⟨hs.fields m hm, fun f hf =>
        ⟨hs.references m hm f hf, hs.keys m hm f hf⟩⟩
    · refine
        (Outcome.mapM_eq_ok_iff_map fun service _ _ =>
          resolveService_eq_ok_iff).mpr ⟨?_, rfl⟩
      intro service hService
      exact ⟨hs.methods service hService,
        fun method hMethod =>
          ⟨hs.requests service hService method hMethod,
            hs.responses service hService method hMethod⟩⟩

end Schema

end TagWire

------------------------------------------------------------
-- Order of Declarations
------------------------------------------------------------

namespace TagWire

namespace Schema

/- Two schemas declare the same, each sort in any order. -/
structure Reorders
    (s s' : ParsedSchema) : Prop where
  enums : s.enums.Perm s'.enums
  messages : s.messages.Perm s'.messages
  services : s.services.Perm s'.services

variable {s s' : ParsedSchema}

theorem Reorders.symm
    (h : s.Reorders s') :
    s'.Reorders s :=
  ⟨h.enums.symm, h.messages.symm, h.services.symm⟩

theorem Reorders.namesMessage_iff
    (h : s.Reorders s')
    {name : String} :
    s.NamesMessage name ↔ s'.NamesMessage name := by
  simp [NamesMessage, h.messages.mem_iff]

theorem Reorders.namesEnum_iff
    (h : s.Reorders s')
    {name : String} :
    s.NamesEnum name ↔ s'.NamesEnum name := by
  simp [NamesEnum, h.enums.mem_iff]

/- A name refers to the same in whatever order. -/
theorem Reorders.referent_eq
    (h : s.Reorders s') :
    s.referent = s'.referent := by
  funext name
  have hSame :
      s.declaresMessage (Names.firstUpper name) =
        s'.declaresMessage (Names.firstUpper name) := by
    rw [Bool.eq_iff_iff, declaresMessage_iff,
      declaresMessage_iff, h.namesMessage_iff]
  rw [referent, referent, hSame]

/- Names that fit together do so in whatever order. -/
theorem Reorders.resolvable
    (h : s.Reorders s')
    (hs : s.Resolvable) :
    s'.Resolvable where
  types := by
    have hPerm : s.typeIdents.Perm s'.typeIdents :=
      ((h.enums.map _).append (h.messages.map _)).append
        (h.services.flatMap_right _)
    exact hPerm.nodup_iff.mp hs.types
  registers :=
    (h.services.map _).nodup_iff.mp hs.registers
  variants e he := hs.variants e (h.enums.mem_iff.mpr he)
  fields m hm := hs.fields m (h.messages.mem_iff.mpr hm)
  methods service hService :=
    hs.methods service (h.services.mem_iff.mpr hService)
  references m hm f hf name hPart := by
    rw [← h.namesMessage_iff, ← h.namesEnum_iff]
    exact hs.references m (h.messages.mem_iff.mpr hm) f hf
      name hPart
  keys m hm := hs.keys m (h.messages.mem_iff.mpr hm)
  requests service hService method hMethod :=
    h.namesMessage_iff.mp
      (hs.requests service (h.services.mem_iff.mpr hService)
        method hMethod)
  responses service hService method hMethod name hName :=
    h.namesMessage_iff.mp
      (hs.responses service (h.services.mem_iff.mpr hService)
        method hMethod name hName)

end Schema

end TagWire

------------------------------------------------------------
-- Referents
------------------------------------------------------------

namespace TagWire

namespace Schema

/- A resolved method speaks of declared messages. -/
theorem exists_mem_resolution
    {s : ParsedSchema}
    {name : String}
    (h : s.NamesMessage name) :
    ∃ m ∈ s.resolution.messages,
      m.name = Names.firstUpper name := by
  rcases h with ⟨m, hm, hName⟩
  exact ⟨s.resolvedMessage m, List.mem_map_of_mem hm, hName⟩

/- In a resolved schema everything referred to is found. -/
theorem findsReferents_of_resolve
    {tokens : List Token}
    {s : ParsedSchema}
    {t : ResolvedSchema}
    (hParse : parse tokens = .ok s)
    (h : s.resolve = .ok t) :
    t.FindsReferents := by
  rcases isTypeName_of_parse hParse with ⟨hEnums, hMessages⟩
  have ht := wellFormed_of_resolve hEnums hMessages h
  rcases resolve_eq_ok_iff.mp h with ⟨hs, rfl⟩
  have hFinds :
      ∀ name, s.NamesMessage name →
        ∃ found,
          s.resolution.message? (Names.firstUpper name) =
              some found ∧
            found.name = Names.firstUpper name := by
    intro name hName
    rcases exists_mem_resolution hName with ⟨m, hm, hSame⟩
    exact ⟨m, hSame ▸ message?_of_mem ht hm, hSame⟩
  refine ⟨?_, ?_, ?_, ?_⟩
  · intro m hm f hf name hPart
    rcases
        exists_message?_of_closed ht
          ((ht.closed m hm f hf).part hPart) with
      ⟨found, _, hFound⟩
    exact ⟨found, hFound⟩
  · intro m hm f hf name hPart
    rcases
        exists_enum?_of_closed ht
          ((ht.closed m hm f hf).part hPart) with
      ⟨found, _, hFound⟩
    exact ⟨found, hFound⟩
  · intro service hService method hMethod
    rcases List.mem_map.mp hService with
      ⟨service', hService', rfl⟩
    rcases List.mem_map.mp hMethod with
      ⟨method', hMethod', rfl⟩
    exact hFinds _ (hs.requests service' hService' method'
      hMethod')
  · intro service hService method hMethod name hName
    rcases List.mem_map.mp hService with
      ⟨service', hService', rfl⟩
    rcases List.mem_map.mp hMethod with
      ⟨method', hMethod', rfl⟩
    rcases Option.map_eq_some_iff.mp hName with
      ⟨name', hName', rfl⟩
    exact hFinds _ (hs.responses service' hService' method'
      hMethod' name' hName')

/-
  A parsed schema is accepted exactly if its names fit
  together. It then has all its declarations in order, with
  names replaced by what they refer to, and everything that
  is referred to is found under its name. In whatever order
  the declarations stand, the schema is accepted or not, and
  each of them is resolved to the same.
-/
theorem resolve_exact
    {tokens : List Token}
    {s : ParsedSchema}
    (hParse : parse tokens = .ok s) :
    ((∃ t, s.resolve = .ok t) ↔ s.Resolvable) ∧
    (∀ t, s.resolve = .ok t →
      t = s.resolution ∧ t.FindsReferents) ∧
    ∀ s', s.Reorders s' →
      ((∃ t', s'.resolve = .ok t') ↔
        ∃ t, s.resolve = .ok t) ∧
      ∀ t', s'.resolve = .ok t' →
        t' =
          ⟨s'.enums, s'.messages.map s.resolvedMessage,
            s'.services.map resolvedService⟩ := by
  have hAccepts :
      ∀ s : ParsedSchema,
        (∃ t, s.resolve = .ok t) ↔ s.Resolvable := by
    intro s
    simp [resolve_eq_ok_iff]
  refine ⟨hAccepts s, ?_, ?_⟩
  · intro t ht
    exact ⟨(resolve_eq_ok_iff.mp ht).2,
      findsReferents_of_resolve hParse ht⟩
  · intro s' hSame
    refine ⟨?_, ?_⟩
    · rw [hAccepts, hAccepts]
      exact ⟨hSame.symm.resolvable, hSame.resolvable⟩
    · intro t' ht'
      rw [(resolve_eq_ok_iff.mp ht').2, resolution]
      have hMessage : s.resolvedMessage = s'.resolvedMessage := by
        funext m
        rw [resolvedMessage, resolvedMessage,
          hSame.referent_eq]
      rw [hMessage]

end Schema

namespace Sample

def Corpus.declaration : EnumDecl where
  name := "Corpus"
  variants := ["Universal", "Web", "Images", "News"]
  position := ⟨3, 1⟩

def SearchRequest.declaration : Message TypeRef where
  name := "SearchRequest"
  fields :=
    [
      ⟨"query", 1, false, .scalar .string, ⟨11, 5⟩⟩,
      ⟨"pageNumber", 2, true, .scalar (.num (.int .int32)),
        ⟨12, 5⟩⟩,
      ⟨"resultsPerPage", 3, true, .scalar (.num (.int .uint16)),
        ⟨13, 5⟩⟩,
      ⟨"corpus", 4, true, .named (.enum "Corpus"), ⟨14, 5⟩⟩,
      ⟨"tags", 5, true, .list (.scalar .string), ⟨15, 5⟩⟩
    ]
  position := ⟨10, 1⟩

def Hit.declaration : Message TypeRef where
  name := "Hit"
  fields :=
    [
      ⟨"url", 1, false, .scalar .string, ⟨19, 5⟩⟩,
      ⟨"title", 2, true, .scalar .string, ⟨20, 5⟩⟩,
      ⟨"score", 3, true, .scalar (.num (.float .float64)),
        ⟨21, 5⟩⟩,
      ⟨"snippets", 4, true, .list (.scalar .string), ⟨22, 5⟩⟩
    ]
  position := ⟨18, 1⟩

def SearchResponse.declaration : Message TypeRef where
  name := "SearchResponse"
  fields :=
    [
      ⟨"hits", 1, true, .list (.named (.message "Hit")),
        ⟨26, 5⟩⟩,
      ⟨"facets", 2, true,
        .map .string (.list (.scalar (.num (.int .int32)))),
        ⟨27, 5⟩⟩,
      ⟨"total", 3, true, .scalar (.num (.int .uint64)), ⟨28, 5⟩⟩,
      ⟨"echo", 4, true, .named (.message "SearchRequest"),
        ⟨29, 5⟩⟩
    ]
  position := ⟨25, 1⟩

def Ping.declaration : Message TypeRef where
  name := "Ping"
  fields :=
    [⟨"nonce", 1, true, .scalar (.num (.int .int64)), ⟨33, 5⟩⟩]
  position := ⟨32, 1⟩

/- The schema of the search service. -/
def searchSchema : ResolvedSchema where
  enums := [Corpus.declaration]
  messages :=
    [
      SearchRequest.declaration, Hit.declaration,
      SearchResponse.declaration, Ping.declaration
    ]
  services :=
    [
      {
        name := "SearchService"
        methods :=
          [
            ⟨"Search", "SearchRequest", some "SearchResponse",
              ⟨37, 5⟩⟩,
            ⟨"Record", "Ping", none, ⟨38, 5⟩⟩
          ]
        position := ⟨36, 1⟩
      }
    ]

theorem compile_searchText :
    compile searchText = .ok searchSchema := by
  apply Outcome.eq_ok_of_toOption
  unfold compile parseSource parseText tokenize searchText
    textOfBlocks
  rw [toList_textOfLines]
  decide +kernel

end Sample

namespace Schema

open Sample in
/- The search service, with an enum and lists of messages. -/
theorem resolve_exact_search :
    ∃ s,
      parse (tokenize searchText) = .ok s ∧
      s.resolve = .ok searchSchema ∧
      s.Resolvable ∧
      searchSchema = s.resolution ∧
      searchSchema.FindsReferents := by
  rcases Outcome.bind_eq_ok_iff.mp compile_searchText with
    ⟨s, hParse, hResolve⟩
  have hParse := Outcome.mapError_eq_ok_iff.mp hParse
  have hResolve := Outcome.mapError_eq_ok_iff.mp hResolve
  rcases resolve_exact hParse with ⟨hAccepts, hResult, _⟩
  exact
    ⟨s, hParse, hResolve, hAccepts.mp ⟨_, hResolve⟩,
      hResult _ hResolve⟩

end Schema

end TagWire
