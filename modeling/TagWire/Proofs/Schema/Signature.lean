import TagWire.Proofs.Schema.Resolution
import TagWire.Proofs.Words

/-
  How types are written: no two types of a schema are written
  alike. A name has no bracket in it, so the brackets tell the
  lists and the maps, and what is inside them.

  Main declarations:
    * `Schema.isIdentifier_of_compile`
    * `Schema.enumName_ne_messageName`
    * `TypeExpr.eq_of_signatureWith_eq`
    * `Schema.eq_of_signature_eq`
-/

------------------------------------------------------------
-- Names in Compiled Schemas
------------------------------------------------------------

namespace TagWire

namespace Declaration

/- The fields of a message have identifiers for names. -/
def HasFieldNames : Declaration String → Prop
| message m => ∀ f ∈ m.fields, isIdentifier f.name = true
| _ => True

end Declaration

namespace Parser

/- A field is declared under an identifier. -/
theorem yields_field :
    Yields field (fun f => isIdentifier f.name = true) := by
  refine yields_bind_any fun start => ?_
  refine yields_bind_any fun optional => ?_
  refine yields_bind_any fun _ => ?_
  refine yields_bind_any fun _ => ?_
  refine yields_bind_any fun seq => ?_
  refine yields_bind_any fun type => ?_
  refine yields_bind (yields_name _) fun fieldName hName => ?_
  refine yields_bind_any fun _ => ?_
  exact yields_pure hName

/- Messages are declared with such fields only. -/
theorem yields_declaration_fields :
    Yields declaration Declaration.HasFieldNames := by
  apply yields_bind_any
  intro t
  split
  · refine yields_bind_any fun h => ?_
    refine yields_bind_any fun _ => ?_
    refine yields_bind_any fun variantNames => ?_
    refine yields_bind_any fun _ => ?_
    exact yields_pure trivial
  · refine yields_bind_any fun h => ?_
    refine yields_bind_any fun _ => ?_
    refine yields_bind (yields_manyUntil yields_field)
      fun fields hFields => ?_
    exact yields_pure hFields
  · refine yields_bind_any fun h => ?_
    refine yields_bind_any fun _ => ?_
    refine yields_bind_any fun methods => ?_
    exact yields_pure trivial
  · exact yields_reject

end Parser

namespace Schema

/- Parsed fields have identifiers for names. -/
theorem isIdentifier_of_parse
    {tokens : List Token}
    {s : ParsedSchema}
    (h : parse tokens = .ok s) :
    ∀ m ∈ s.messages, ∀ f ∈ m.fields,
      isIdentifier f.name = true := by
  rcases Outcome.bind_eq_ok_iff.mp h with
    ⟨⟨ds, s'⟩, hRun, hSchema⟩
  obtain rfl := Outcome.pure_eq_ok_iff.mp hSchema
  have hNames :=
    Parser.yields_manyUntil Parser.yields_declaration_fields
      _ ds s' hRun
  intro m hm
  rcases List.mem_filterMap.mp hm with ⟨d, hd, hMessage⟩
  have hFields := hNames d hd
  cases d <;> cases hMessage
  exact hFields

variable {text : String}
variable {s : ResolvedSchema}

/- A compiled schema is the resolution of what is parsed. -/
theorem exists_parsed_of_compile
    (h : compile text = .ok s) :
    ∃ parsed : ParsedSchema,
      (∀ m ∈ parsed.messages, ∀ f ∈ m.fields,
        isIdentifier f.name = true) ∧
      parsed.Resolvable ∧ s = parsed.resolution := by
  rcases Outcome.bind_eq_ok_iff.mp h with
    ⟨parsed, hParse, hResolve⟩
  have hParsed := Outcome.mapError_eq_ok_iff.mp hParse
  have hResolved := Outcome.mapError_eq_ok_iff.mp hResolve
  exact ⟨parsed, isIdentifier_of_parse hParsed,
    resolve_eq_ok_iff.mp hResolved⟩

/- The names of fields are identifiers. -/
theorem isIdentifier_of_compile
    (h : compile text = .ok s)
    {m : Message TypeRef}
    (hm : m ∈ s.messages)
    {f : Field TypeRef}
    (hf : f ∈ m.fields) :
    isIdentifier f.name = true := by
  rcases exists_parsed_of_compile h with
    ⟨parsed, hFields, _, rfl⟩
  rcases List.mem_map.mp hm with ⟨m', hm', rfl⟩
  rcases List.mem_map.mp hf with ⟨f', hf', rfl⟩
  exact hFields m' hm' f' hf'

/- No enum shares its name with a message. -/
theorem enumName_ne_messageName
    (h : compile text = .ok s)
    {e : EnumDecl}
    (he : e ∈ s.enums)
    {m : Message TypeRef}
    (hm : m ∈ s.messages) :
    e.name ≠ m.name := by
  rcases exists_parsed_of_compile h with
    ⟨parsed, _, hResolvable, rfl⟩
  rcases List.mem_map.mp hm with ⟨m', hm', rfl⟩
  have hTypes := hResolvable.types
  rw [typeIdents, List.append_assoc] at hTypes
  intro hSame
  have hMem :
      Names.typeIdent e.name ∈
        parsed.messages.map (Names.typeIdent ·.name) ++
          parsed.services.flatMap fun service =>
            [
              Names.handlerIdent service.name,
              Names.adapterIdent service.name,
              Names.serviceIdent service.name
            ] := by
    refine List.mem_append_left _ ?_
    rw [hSame]
    exact List.mem_map_of_mem hm'
  exact
    (List.nodup_append.mp hTypes).2.2 _ (List.mem_map_of_mem he)
      _ hMem rfl

end Schema

end TagWire

------------------------------------------------------------
-- Types as They Are Written
------------------------------------------------------------

namespace TagWire

namespace TypeExpr

variable {ρ : Type}

/-
  References that are written as words, differently from each
  other and from scalars.
-/
structure Legible
    (nameOf : ρ → String)
    (P : ρ → Prop) : Prop where
  word : ∀ r, P r → IsWord (nameOf r)
  apart : ∀ r, P r → ∀ kind : ScalarKind, nameOf r ≠ kind.name
  injective :
    ∀ r r', P r → P r' → nameOf r = nameOf r' → r = r'

/- A word has no bracket in it. -/
private theorem bracket_not_mem_of_isWord
    {text : String}
    (h : IsWord text) :
    '[' ∉ text.toList ∧ ']' ∉ text.toList :=
  ⟨fun hMem => absurd (h _ hMem) (by decide),
    fun hMem => absurd (h _ hMem) (by decide)⟩

/- The signatures of containers have a bracket in them. -/
private theorem bracket_mem_list
    (nameOf : ρ → String)
    (element : TypeExpr ρ) :
    '[' ∈ ((list element).signatureWith nameOf).toList := by
  simp [signatureWith]

private theorem bracket_mem_map
    (nameOf : ρ → String)
    (key : ScalarKind)
    (value : TypeExpr ρ) :
    '[' ∈ ((map key value).signatureWith nameOf).toList := by
  simp [signatureWith]

/- Lists and maps start with different words. -/
private theorem signature_list_ne_map
    (nameOf : ρ → String)
    (element value : TypeExpr ρ)
    (key : ScalarKind) :
    (list element).signatureWith nameOf ≠
      (map key value).signatureWith nameOf := by
  intro h
  have hHead := congrArg (·.toList.head?) h
  simp [signatureWith] at hHead

/- A list is written with its element between brackets. -/
private theorem signature_list_inj
    {nameOf : ρ → String}
    {element element' : TypeExpr ρ}
    (h :
      (list element).signatureWith nameOf =
        (list element').signatureWith nameOf) :
    element.signatureWith nameOf =
      element'.signatureWith nameOf :=
  (String.append_right_inj _).mp
    ((String.append_left_inj _).mp h)

/- The key of a map ends with the first closing bracket. -/
private theorem signature_map_inj
    {nameOf : ρ → String}
    {key key' : ScalarKind}
    {value value' : TypeExpr ρ}
    (h :
      (map key value).signatureWith nameOf =
        (map key' value').signatureWith nameOf) :
    key = key' ∧
      value.signatureWith nameOf =
        value'.signatureWith nameOf := by
  simp only [signatureWith, String.append_assoc,
    String.append_right_inj] at h
  have hTake :
      ∀ (k : ScalarKind) (rest : String),
        (k.name ++ ("]" ++ rest)).toList.takeWhile
            isIdentifierPart =
          k.name.toList := by
    intro k rest
    have hEnd : isIdentifierPart ']' = false := by decide
    rw [String.toList_append, List.takeWhile_append_of_pos
      (isWord_scalarName k)]
    simp [hEnd]
  have hName : key.name.toList = key'.name.toList := by
    rw [← hTake key, h, hTake]
  obtain rfl :=
    ScalarKind.name_injective (String.toList_inj.mp hName)
  simp only [String.append_right_inj] at h
  exact ⟨rfl, h⟩

/- Types whose references are legible are written differently. -/
theorem eq_of_signatureWith_eq
    {nameOf : ρ → String}
    {P : ρ → Prop}
    (hLegible : Legible nameOf P)
    {type type' : TypeExpr ρ}
    (h : ∀ r, Part (.named r) type → P r)
    (h' : ∀ r, Part (.named r) type' → P r)
    (hSame :
      type.signatureWith nameOf = type'.signatureWith nameOf) :
    type = type' := by
  have hScalar (kind : ScalarKind) : '[' ∉ kind.name.toList :=
    (bracket_not_mem_of_isWord (isWord_scalarName kind)).1
  have hNamed (r : ρ) (hr : P r) : '[' ∉ (nameOf r).toList :=
    (bracket_not_mem_of_isWord (hLegible.word r hr)).1
  induction type generalizing type' with
  | scalar kind =>
      cases type' with
      | scalar kind' =>
          rw [ScalarKind.name_injective hSame]
      | named r' =>
          exact absurd hSame.symm
            (hLegible.apart r' (h' r' .refl) kind)
      | list element =>
          have hMem := bracket_mem_list nameOf element
          rw [← hSame] at hMem
          exact absurd hMem (hScalar kind)
      | map key value =>
          have hMem := bracket_mem_map nameOf key value
          rw [← hSame] at hMem
          exact absurd hMem (hScalar kind)
  | named r =>
      have hr := h r .refl
      cases type' with
      | scalar kind' =>
          exact absurd hSame (hLegible.apart r hr kind')
      | named r' =>
          rw [hLegible.injective r r' hr (h' r' .refl) hSame]
      | list element =>
          have hMem := bracket_mem_list nameOf element
          rw [← hSame] at hMem
          exact absurd hMem (hNamed r hr)
      | map key value =>
          have hMem := bracket_mem_map nameOf key value
          rw [← hSame] at hMem
          exact absurd hMem (hNamed r hr)
  | list element ih =>
      cases type' with
      | scalar kind' =>
          have hMem := bracket_mem_list nameOf element
          rw [hSame] at hMem
          exact absurd hMem (hScalar kind')
      | named r' =>
          have hMem := bracket_mem_list nameOf element
          rw [hSame] at hMem
          exact absurd hMem (hNamed r' (h' r' .refl))
      | list element' =>
          rw [ih (fun r hr => h r (.element hr))
            (fun r hr => h' r (.element hr))
            (signature_list_inj hSame)]
      | map key value =>
          exact absurd hSame
            (signature_list_ne_map nameOf element value key)
  | map key value ih =>
      cases type' with
      | scalar kind' =>
          have hMem := bracket_mem_map nameOf key value
          rw [hSame] at hMem
          exact absurd hMem (hScalar kind')
      | named r' =>
          have hMem := bracket_mem_map nameOf key value
          rw [hSame] at hMem
          exact absurd hMem (hNamed r' (h' r' .refl))
      | list element' =>
          exact absurd hSame.symm
            (signature_list_ne_map nameOf element' value key)
      | map key' value' =>
          rcases signature_map_inj hSame with ⟨rfl, hValue⟩
          rw [ih (fun r hr => h r (.value hr))
            (fun r hr => h' r (.value hr)) hValue]

end TypeExpr

namespace Schema

variable {text : String}
variable {s : ResolvedSchema}

/- The names of types are words, but not names of scalars. -/
theorem isWord_of_isTypeName
    {name : String}
    (h : IsTypeName name) :
    IsWord name ∧ ∀ kind : ScalarKind, name ≠ kind.name := by
  rcases h with ⟨word, hWord, rfl⟩
  refine ⟨isWord_firstUpper (isWord_of_isIdentifier hWord), ?_⟩
  intro kind hSame
  have hAll :
      ∀ k ∈ ScalarKind.all, Names.firstUpper k.name ≠ k.name := by
    decide +kernel
  refine hAll kind (ScalarKind.mem_all kind) ?_
  rw [← hSame]
  exact firstUpper_of_isTypeName ⟨word, hWord, rfl⟩

/- References to declarations are legible. -/
theorem legible_of_compile
    (h : compile text = .ok s) :
    TypeExpr.Legible TypeRef.name
      (fun r => s.Closed (.named r)) := by
  have hs := wellFormed_of_compile h
  have hTypeName :
      ∀ r, s.Closed (.named r) → IsTypeName r.name := by
    intro r hr
    cases r with
    | enum name =>
        rcases hr with ⟨e, he, rfl, _⟩
        exact hs.enumTypeName e he
    | message name =>
        rcases hr with ⟨m, hm, rfl⟩
        exact hs.messageTypeName m hm
  refine ⟨?_, ?_, ?_⟩
  · exact fun r hr => (isWord_of_isTypeName (hTypeName r hr)).1
  · exact fun r hr => (isWord_of_isTypeName (hTypeName r hr)).2
  · intro r r' hr hr' hSame
    cases r with
    | enum name =>
        cases r' with
        | enum name' => exact congrArg TypeRef.enum hSame
        | message name' =>
            rcases hr with ⟨e, he, rfl, _⟩
            rcases hr' with ⟨m, hm, rfl⟩
            exact absurd hSame (enumName_ne_messageName h he hm)
    | message name =>
        cases r' with
        | enum name' =>
            rcases hr with ⟨m, hm, rfl⟩
            rcases hr' with ⟨e, he, rfl, _⟩
            exact absurd hSame.symm
              (enumName_ne_messageName h he hm)
        | message name' => exact congrArg TypeRef.message hSame

/- Types of a compiled schema are written differently. -/
theorem eq_of_signature_eq
    (h : compile text = .ok s)
    {type type' : ResolvedType}
    (hType : s.Closed type)
    (hType' : s.Closed type')
    (hSame :
      ResolvedType.signature type =
        ResolvedType.signature type') :
    type = type' :=
  TypeExpr.eq_of_signatureWith_eq (legible_of_compile h)
    (fun _ hPart => hType.part hPart)
    (fun _ hPart => hType'.part hPart) hSame

end Schema

end TagWire
