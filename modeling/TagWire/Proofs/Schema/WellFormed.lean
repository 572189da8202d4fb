import Mathlib.Data.List.Nodup
import TagWire.Compile
import TagWire.Proofs.Outcome

/-
  What a schema text that compiles promises: names that tell
  declarations, fields and variants apart, and types in which
  every reference leads to a declaration of its sort.

  Main declarations:
    * `Schema.Closed`
    * `Schema.WellFormed`
    * `Schema.wellFormed_of_compile`
    * `Schema.message?_of_mem`
-/

------------------------------------------------------------
-- Names of Types
------------------------------------------------------------

namespace TagWire

open Text

/- The name of an enum or a message, as it is kept. -/
def IsTypeName
    (name : String) : Prop :=
  ∃ word, isIdentifier word = true ∧
    name = Names.firstUpper word

private theorem toNat_lt_of_isIdentifierStart
    {c : Char}
    (h : isIdentifierStart c = true) :
    c.toNat < 128 := by
  have hAlpha : c.isAlpha = true ∨ c = '_' := by
    simpa [isIdentifierStart] using h
  rcases hAlpha with hAlpha | rfl
  · rcases Bool.or_eq_true_iff.mp hAlpha with hUpper | hLower
    · have hBound := (of_decide_eq_true hUpper).2
      exact Nat.lt_of_le_of_lt hBound (by decide)
    · have hBound := (Bool.and_eq_true_iff.mp hLower).2
      exact Nat.lt_of_le_of_lt (of_decide_eq_true hBound)
        (by decide)
  · decide

private theorem toUpper_twice
    {c : Char}
    (h : c.toNat < 128) :
    c.toUpper.toNat < 128 ∧ c.toUpper.toUpper = c.toUpper := by
  have hAll :
      ∀ n : Fin 128,
        (Char.ofNat n).toUpper.toNat < 128 ∧
          (Char.ofNat n).toUpper.toUpper =
            (Char.ofNat n).toUpper := by
    decide
  have hChar := hAll ⟨c.toNat, h⟩
  rwa [Char.ofNat_toNat] at hChar

/- A name that is kept starts with a capital already. -/
theorem firstUpper_of_isTypeName
    {name : String}
    (h : IsTypeName name) :
    Names.firstUpper name = name := by
  rcases h with ⟨word, hWord, rfl⟩
  unfold isIdentifier at hWord
  cases hChars : word.toList with
  | nil =>
      rw [hChars] at hWord
      cases hWord
  | cons c cs =>
      rw [hChars] at hWord
      have hStart := (Bool.and_eq_true_iff.mp hWord).1
      have hSmall := toNat_lt_of_isIdentifierStart hStart
      rcases toUpper_twice hSmall with ⟨hSmall', hTwice⟩
      have hFirst :
          Names.firstUpper word =
            String.ofList (c.toUpper :: cs) := by
        simp [Names.firstUpper, hChars, uppercase, hSmall]
      rw [hFirst]
      simp [Names.firstUpper, uppercase, hSmall', hTwice]

end TagWire

------------------------------------------------------------
-- Names in Parsed Declarations
------------------------------------------------------------

namespace TagWire

namespace Parser

variable {α β : Type}

/- All values that a parser gives have a property. -/
def Yields
    (p : Parser α)
    (P : α → Prop) : Prop :=
  ∀ s a s', p s = .ok (a, s') → P a

/- A sequence yields what its last part yields. -/
theorem yields_bind
    {p : Parser α}
    {f : α → Parser β}
    {P : α → Prop}
    {Q : β → Prop}
    (hp : Yields p P)
    (hf : ∀ a, P a → Yields (f a) Q) :
    Yields (p >>= f) Q := by
  intro s b s' h
  rcases exists_of_bind_eq_ok h with ⟨a, t, hFirst, hSecond⟩
  exact hf a (hp s a t hFirst) t b s' hSecond

/- A sequence whose first part promises nothing. -/
theorem yields_bind_any
    {p : Parser α}
    {f : α → Parser β}
    {Q : β → Prop}
    (hf : ∀ a, Yields (f a) Q) :
    Yields (p >>= f) Q :=
  yields_bind
    (P := fun _ => True)
    (fun _ _ _ _ => trivial) (fun a _ => hf a)

theorem yields_pure
    {a : α}
    {P : α → Prop}
    (h : P a) :
    Yields (pure a) P := by
  intro s b s' hRun
  cases hRun
  exact h

theorem yields_reject
    {fault : ParseFault}
    {t : Token}
    {P : α → Prop} :
    Yields (reject fault t) P := by
  intro s a s' h
  cases h

/- A name that is taken is an identifier. -/
theorem yields_name
    (e : Expectation) :
    Yields (name e) (fun n => isIdentifier n = true) := by
  apply yields_bind_any
  intro t
  split
  · next hName => exact yields_pure hName
  · exact yields_reject

/- Repetition yields what each round yields. -/
theorem yields_manyUntil
    {p : Parser α}
    {hp : Progresses p}
    {close : TokenKind}
    {P : α → Prop}
    (h : Yields p P) :
    Yields (manyUntil p hp close)
      (fun as => ∀ a ∈ as, P a) := by
  intro s
  fun_induction manyUntil p hp close s with
  | case1 s hClose =>
      intro as s' hRun
      cases hRun
      exact fun a ha => absurd ha List.not_mem_nil
  | case2 s hClose e hError =>
      intro as s' hRun
      cases hRun
  | case3 s hClose a s₁ hFirst hLt e hError ih =>
      intro as s' hRun
      cases hRun
  | case4 s hClose a s₁ hFirst hLt rest s₂ hRest ih =>
      intro as s' hRun
      cases hRun
      exact List.forall_mem_cons.mpr
        ⟨h s a s₁ hFirst, ih rest s₂ hRest⟩

/- The heading of a declaration has an identifier. -/
theorem yields_heading
    (k : Keyword) :
    Yields (heading k)
      (fun h => isIdentifier h.2 = true) := by
  refine yields_bind_any fun t => ?_
  refine yields_bind (yields_name _) fun n hName => ?_
  exact yields_pure hName

end Parser

namespace Declaration

/- The declared name is the name of a type. -/
def HasTypeName : Declaration String → Prop
| enum e => IsTypeName e.name
| message m => IsTypeName m.name
| service _ => True

end Declaration

namespace Parser

/- Enums and messages are declared under names of types. -/
theorem yields_declaration :
    Yields declaration Declaration.HasTypeName := by
  apply yields_bind_any
  intro t
  split
  · refine yields_bind (yields_heading _) fun h hWord => ?_
    refine yields_bind_any fun _ => ?_
    refine yields_bind_any fun variantNames => ?_
    refine yields_bind_any fun _ => ?_
    exact yields_pure ⟨h.2, hWord, rfl⟩
  · refine yields_bind (yields_heading _) fun h hWord => ?_
    refine yields_bind_any fun _ => ?_
    refine yields_bind_any fun fields => ?_
    exact yields_pure ⟨h.2, hWord, rfl⟩
  · refine yields_bind_any fun h => ?_
    refine yields_bind_any fun _ => ?_
    refine yields_bind_any fun methods => ?_
    exact yields_pure trivial
  · exact yields_reject

end Parser

/- Parsed enums and messages have names of types. -/
theorem isTypeName_of_parse
    {tokens : List Token}
    {s : ParsedSchema}
    (h : parse tokens = .ok s) :
    (∀ e ∈ s.enums, IsTypeName e.name) ∧
      (∀ m ∈ s.messages, IsTypeName m.name) := by
  rcases Outcome.bind_eq_ok_iff.mp h with
    ⟨⟨ds, s'⟩, hRun, hSchema⟩
  obtain rfl := Outcome.pure_eq_ok_iff.mp hSchema
  have hNames :=
    Parser.yields_manyUntil Parser.yields_declaration
      _ ds s' hRun
  constructor
  · intro e he
    rcases List.mem_filterMap.mp he with ⟨d, hd, hEnum⟩
    have hName := hNames d hd
    cases d <;> cases hEnum
    exact hName
  · intro m hm
    rcases List.mem_filterMap.mp hm with ⟨d, hd, hMessage⟩
    have hName := hNames d hd
    cases d <;> cases hMessage
    exact hName

end TagWire

------------------------------------------------------------
-- Well-Formed Schemas
------------------------------------------------------------

namespace TagWire

namespace Schema

/-
  Every reference in a type leads to a declaration, an enum
  having a variant, and no map is keyed by floats.
-/
def Closed
    (s : ResolvedSchema) :
    ResolvedType → Prop
| .scalar _ => True
| .named (.enum name) =>
    ∃ e ∈ s.enums, e.name = name ∧ e.variants ≠ []
| .named (.message name) => ∃ m ∈ s.messages, m.name = name
| .list element => Closed s element
| .map key value => key.isMapKey = true ∧ Closed s value

/-
  The names of a schema tell its parts apart, lookups find
  them, and the types of all fields are closed.
-/
structure WellFormed
    (s : ResolvedSchema) : Prop where
  enumNames : (s.enums.map EnumDecl.name).Nodup
  messageNames : (s.messages.map Message.name).Nodup
  enumTypeName : ∀ e ∈ s.enums, IsTypeName e.name
  messageTypeName : ∀ m ∈ s.messages, IsTypeName m.name
  variants : ∀ e ∈ s.enums, e.variants.Nodup
  fieldNames : ∀ m ∈ s.messages, (m.fields.map Field.name).Nodup
  closed :
    ∀ m ∈ s.messages, ∀ f ∈ m.fields, s.Closed f.type

------------------------------------------------------------
-- Lookups
------------------------------------------------------------

/- A lookup finds a declared message of the name. -/
theorem of_message?_eq_some
    {ρ : Type}
    {s : Schema ρ}
    {name : String}
    {m : Message ρ}
    (h : s.message? name = some m) :
    m ∈ s.messages ∧ m.name = Names.firstUpper name := by
  have hName := List.find?_some h
  exact ⟨List.mem_of_find?_eq_some h, eq_of_beq hName⟩

/- A lookup finds a declared enum of the name. -/
theorem of_enum?_eq_some
    {ρ : Type}
    {s : Schema ρ}
    {name : String}
    {e : EnumDecl}
    (h : s.enum? name = some e) :
    e ∈ s.enums ∧ e.name = Names.firstUpper name := by
  have hName := List.find?_some h
  exact ⟨List.mem_of_find?_eq_some h, eq_of_beq hName⟩

/- The only thing of a name is found by the name. -/
theorem find?_of_nodup
    {α : Type}
    {nameOf : α → String}
    {as : List α}
    {a : α}
    (hNodup : (as.map nameOf).Nodup)
    (ha : a ∈ as) :
    as.find? (fun b => nameOf b == nameOf a) = some a := by
  cases hFound : as.find? (fun b => nameOf b == nameOf a) with
  | none =>
      have hNone := List.find?_eq_none.mp hFound a ha
      simp at hNone
  | some b =>
      have hMem := List.mem_of_find?_eq_some hFound
      have hName := List.find?_some hFound
      rw [List.inj_on_of_nodup_map hNodup hMem ha
        (eq_of_beq hName)]

/- A declared message is found by its name. -/
theorem message?_of_mem
    {s : ResolvedSchema}
    (hs : s.WellFormed)
    {m : Message TypeRef}
    (hm : m ∈ s.messages) :
    s.message? m.name = some m := by
  unfold message?
  rw [firstUpper_of_isTypeName (hs.messageTypeName m hm)]
  exact find?_of_nodup hs.messageNames hm

/- A declared enum is found by its name. -/
theorem enum?_of_mem
    {s : ResolvedSchema}
    (hs : s.WellFormed)
    {e : EnumDecl}
    (he : e ∈ s.enums) :
    s.enum? e.name = some e := by
  unfold enum?
  rw [firstUpper_of_isTypeName (hs.enumTypeName e he)]
  exact find?_of_nodup hs.enumNames he

/- A closed reference to a message finds it by this name. -/
theorem exists_message?_of_closed
    {s : ResolvedSchema}
    (hs : s.WellFormed)
    {name : String}
    (h : s.Closed (.named (.message name))) :
    ∃ m ∈ s.messages,
      s.message? name = some m ∧ m.name = name := by
  rcases h with ⟨m, hm, rfl⟩
  exact ⟨m, hm, message?_of_mem hs hm, rfl⟩

/- A closed reference to an enum finds it by this name. -/
theorem exists_enum?_of_closed
    {s : ResolvedSchema}
    (hs : s.WellFormed)
    {name : String}
    (h : s.Closed (.named (.enum name))) :
    ∃ e ∈ s.enums,
      s.enum? name = some e ∧ e.name = name := by
  rcases h with ⟨e, he, rfl, _⟩
  exact ⟨e, he, enum?_of_mem hs he, rfl⟩

end Schema

end TagWire

------------------------------------------------------------
-- Resolution
------------------------------------------------------------

namespace TagWire

namespace Schema

/- Accepted claims are claims of different names. -/
theorem checkClaims_eq_ok_iff
    {claims : List NameClaim} :
    checkClaims claims = .ok () ↔
      (claims.map NameClaim.key).Nodup := by
  unfold checkClaims
  rw [← firstRepeat?_eq_none_iff]
  cases firstRepeat? NameClaim.key claims <;> simp

/- Accepted members are members of different names. -/
theorem checkMembers_eq_ok_iff
    {owner : String}
    {idents : List String} :
    checkMembers owner idents = .ok () ↔ idents.Nodup := by
  unfold checkMembers
  have hIff :
      firstRepeat? id idents = none ↔
        (idents.map id).Nodup :=
    firstRepeat?_eq_none_iff
  rw [List.map_id] at hIff
  rw [← hIff]
  cases firstRepeat? id idents <;> simp

/- A reference that resolves leads to a declaration. -/
theorem closed_of_reference
    {s : ParsedSchema}
    {t : ResolvedSchema}
    {usedBy name : String}
    {r : TypeRef}
    (hEnums : t.enums = s.enums)
    (hMessages :
      t.messages.map Message.name =
        s.messages.map Message.name)
    (h : s.reference usedBy name = .ok r) :
    t.Closed (.named r) := by
  unfold reference at h
  simp only at h
  split at h
  · next hDeclared =>
      cases h
      simp only [declaresMessage, List.any_eq_true,
        beq_iff_eq] at hDeclared
      rcases hDeclared with ⟨m, hm, hName⟩
      have hMem : m.name ∈ t.messages.map Message.name := by
        rw [hMessages]
        exact List.mem_map_of_mem hm
      rcases List.mem_map.mp hMem with ⟨m', hm', hSame⟩
      exact ⟨m', hm', hSame.trans hName⟩
  · split at h
    · next e hFound =>
        split at h
        · cases h
        · next hVariants =>
            cases h
            refine ⟨e, ?_, ?_, ?_⟩
            · rw [hEnums]
              exact List.mem_of_find?_eq_some hFound
            · have hName := List.find?_some hFound
              exact eq_of_beq hName
            · simpa using hVariants
    · cases h

/- A type that resolves is closed. -/
theorem closed_of_resolveType
    {s : ParsedSchema}
    {t : ResolvedSchema}
    {usedBy : String}
    (hEnums : t.enums = s.enums)
    (hMessages :
      t.messages.map Message.name =
        s.messages.map Message.name)
    {type : TypeExpr String}
    {resolved : ResolvedType}
    (h : s.resolveType usedBy type = .ok resolved) :
    t.Closed resolved := by
  induction type generalizing resolved with
  | scalar kind =>
      cases h
      exact trivial
  | named name =>
      rcases Outcome.bind_eq_ok_iff.mp h with
        ⟨r, hReference, hPure⟩
      obtain rfl := Outcome.pure_eq_ok_iff.mp hPure
      exact closed_of_reference hEnums hMessages hReference
  | list element ih =>
      rcases Outcome.bind_eq_ok_iff.mp h with
        ⟨r, hElement, hPure⟩
      obtain rfl := Outcome.pure_eq_ok_iff.mp hPure
      show t.Closed r
      exact ih hElement
  | map key value ih =>
      unfold resolveType at h
      split at h
      · next hKey =>
          rcases Outcome.bind_eq_ok_iff.mp h with
            ⟨r, hValue, hPure⟩
          obtain rfl := Outcome.pure_eq_ok_iff.mp hPure
          exact ⟨hKey, ih hValue⟩
      · cases h

/- What a resolved message keeps, and what is checked in it. -/
theorem of_resolveMessage
    {s : ParsedSchema}
    {t : ResolvedSchema}
    (hEnums : t.enums = s.enums)
    (hMessages :
      t.messages.map Message.name =
        s.messages.map Message.name)
    {m : Message String}
    {resolved : Message TypeRef}
    (h : s.resolveMessage m = .ok resolved) :
    (resolved.fields.map Field.name).Nodup ∧
      ∀ f ∈ resolved.fields, t.Closed f.type := by
  unfold resolveMessage at h
  rcases Outcome.bind_eq_ok_iff.mp h with ⟨_, hCheck, hRest⟩
  rcases Outcome.bind_eq_ok_iff.mp hRest with
    ⟨fields, hFields, hPure⟩
  obtain rfl := Outcome.pure_eq_ok_iff.mp hPure
  have hNames :
      fields.map Field.name = m.fields.map Field.name := by
    apply Outcome.map_eq_of_mapM _ hFields
    intro f f' hField
    rcases Outcome.bind_eq_ok_iff.mp hField with
      ⟨_, _, hPure⟩
    obtain rfl := Outcome.pure_eq_ok_iff.mp hPure
    rfl
  constructor
  · rw [hNames]
    apply List.Nodup.of_map Names.fieldIdent
    rw [List.map_map]
    exact checkMembers_eq_ok_iff.mp hCheck
  · intro f hf
    rcases Outcome.exists_of_mem_mapM hFields hf with
      ⟨g, _, hField⟩
    rcases Outcome.bind_eq_ok_iff.mp hField with
      ⟨type, hType, hPure⟩
    obtain rfl := Outcome.pure_eq_ok_iff.mp hPure
    exact closed_of_resolveType hEnums hMessages hType

/- A resolved schema with names of types is well-formed. -/
theorem wellFormed_of_resolve
    {s : ParsedSchema}
    {t : ResolvedSchema}
    (hEnumNames : ∀ e ∈ s.enums, IsTypeName e.name)
    (hMessageNames : ∀ m ∈ s.messages, IsTypeName m.name)
    (h : s.resolve = .ok t) :
    t.WellFormed := by
  unfold resolve at h
  rcases Outcome.bind_eq_ok_iff.mp h with
    ⟨_, hClaims, hRest⟩
  rcases Outcome.bind_eq_ok_iff.mp hRest with
    ⟨_, hVariants, hRest⟩
  rcases Outcome.bind_eq_ok_iff.mp hRest with
    ⟨messages, hMessages, hRest⟩
  rcases Outcome.bind_eq_ok_iff.mp hRest with
    ⟨services, _, hPure⟩
  obtain rfl := Outcome.pure_eq_ok_iff.mp hPure
  have hKeys := checkClaims_eq_ok_iff.mp hClaims
  simp only [nameClaims, List.map_append, List.map_map,
    List.append_assoc] at hKeys
  have hNames :
      messages.map Message.name =
        s.messages.map Message.name := by
    apply Outcome.map_eq_of_mapM _ hMessages
    intro m m' hMessage
    rcases Outcome.bind_eq_ok_iff.mp hMessage with
      ⟨_, _, hRest⟩
    rcases Outcome.bind_eq_ok_iff.mp hRest with
      ⟨_, _, hPure⟩
    obtain rfl := Outcome.pure_eq_ok_iff.mp hPure
    rfl
  have hChecked :
      ∀ m ∈ messages,
        (m.fields.map Field.name).Nodup ∧
          ∀ f ∈ m.fields,
            Closed ⟨s.enums, messages, services⟩ f.type := by
    intro m hm
    rcases Outcome.exists_of_mem_mapM hMessages hm with
      ⟨m', _, hMessage⟩
    exact
      of_resolveMessage (t := ⟨s.enums, messages, services⟩)
        rfl hNames hMessage
  have hNodupEnums := (List.nodup_append.mp hKeys).1
  have hNodupMessages :=
    (List.nodup_append.mp (List.nodup_append.mp hKeys).2.1).1
  refine ⟨?_, ?_, hEnumNames, ?_, ?_, ?_, ?_⟩
  · apply List.Nodup.of_map
      (fun name => NameClaim.key (NameClaim.ofType name))
    rw [List.map_map]
    exact hNodupEnums
  · rw [hNames]
    apply List.Nodup.of_map
      (fun name => NameClaim.key (NameClaim.ofType name))
    rw [List.map_map]
    exact hNodupMessages
  · intro m hm
    have hName : m.name ∈ s.messages.map Message.name := by
      rw [← hNames]
      exact List.mem_map_of_mem hm
    rcases List.mem_map.mp hName with ⟨m', hm', hSame⟩
    rw [← hSame]
    exact hMessageNames m' hm'
  · intro e he
    have hMembers := Outcome.forM_eq_ok_iff.mp hVariants e he
    exact List.Nodup.of_map Names.typeIdent
      (checkMembers_eq_ok_iff.mp hMembers)
  · exact fun m hm => (hChecked m hm).1
  · exact fun m hm => (hChecked m hm).2

/- A schema text that compiles gives a well-formed schema. -/
theorem wellFormed_of_compile
    {text : String}
    {s : ResolvedSchema}
    (h : compile text = .ok s) :
    s.WellFormed := by
  rcases Outcome.bind_eq_ok_iff.mp h with
    ⟨parsed, hParse, hResolve⟩
  have hParsed := Outcome.mapError_eq_ok_iff.mp hParse
  have hResolved := Outcome.mapError_eq_ok_iff.mp hResolve
  rcases isTypeName_of_parse hParsed with
    ⟨hEnums, hMessages⟩
  exact wellFormed_of_resolve hEnums hMessages hResolved

end Schema

end TagWire
