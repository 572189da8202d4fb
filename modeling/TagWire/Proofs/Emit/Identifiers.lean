import TagWire.Proofs.Schema.Concatenation
import TagWire.Proofs.Schema.Resolution
import TagWire.Proofs.Words

/-
  The names of the generated code. A declared name is made
  into names of letters, digits and underscores which are not
  reserved. They are legal but for a name that is only an
  underscore: this stands for nothing in the code, and is
  declared all the same.

  Main declarations:
    * `Names.IsLegal`
    * `Names.isLegal_escape_iff`
    * `NameUse.ident`
    * `Schema.Uses`
    * `Schema.isName_of_uses`
    * `Schema.isLegal_ident_iff`
-/

------------------------------------------------------------
-- Names and Words
------------------------------------------------------------

namespace TagWire

open Grammar Text

/- A name is a word that starts with a letter. -/
theorem isName_iff
    {text : String} :
    IsName text ↔
      IsWord text ∧
        ∃ c rest, text.toList = c :: rest ∧ IsLetter c := by
  rw [← isIdentifier_iff]
  constructor
  · intro h
    refine ⟨isWord_of_isIdentifier h, ?_⟩
    rcases isIdentifier_iff.mp h with ⟨c, rest, hChars, hc, _⟩
    exact ⟨c, rest, hChars, hc⟩
  · intro h
    rcases h with ⟨hWord, c, rest, hChars, hc⟩
    refine isIdentifier_iff.mpr ⟨c, rest, hChars, hc, ?_⟩
    intro d hd
    refine isIdentifierPart_iff.mp (hWord d ?_)
    rw [hChars]
    exact List.mem_cons_of_mem c hd

/- A name goes on with any word. -/
theorem isName_append
    {text text' : String}
    (h : IsName text)
    (h' : IsWord text') :
    IsName (text ++ text') := by
  rcases isName_iff.mp h with ⟨hWord, c, rest, hChars, hc⟩
  refine isName_iff.mpr ⟨isWord_append_iff.mpr ⟨hWord, h'⟩, ?_⟩
  refine ⟨c, rest ++ text'.toList, ?_, hc⟩
  rw [String.toList_append, hChars, List.cons_append]

/- In both cases a letter is a letter, or the underscore. -/
private theorem letterCase
    {c : Char}
    (h : IsLetter c) :
    (uppercase c = [c.toUpper] ∧ IsLetter c.toUpper ∧
      (c.toUpper = '_' → c = '_')) ∧
      (lowercase c = [c.toLower] ∧ IsLetter c.toLower ∧
        (c.toLower = '_' → c = '_')) := by
  simp only [← isIdentifierStart_iff] at h ⊢
  have hPart : isIdentifierPart c = true :=
    isIdentifierPart_iff.mpr (.inl (isIdentifierStart_iff.mp h))
  revert h
  revert c
  apply forall_isIdentifierPart
  decide +kernel

end TagWire

------------------------------------------------------------
-- Letter Case
------------------------------------------------------------

namespace TagWire

open Grammar Text

namespace Names

/- A name with its first character in uppercase is a name. -/
theorem isName_firstUpper
    {text : String}
    (h : IsName text) :
    IsName (firstUpper text) ∧
      (firstUpper text = "_" ↔ text = "_") := by
  rcases isName_iff.mp h with ⟨hWord, c, rest, hChars, hc⟩
  rcases letterCase hc with ⟨⟨hCase, hLetter, hOnly⟩, _⟩
  have hFirst : (firstUpper text).toList = c.toUpper :: rest := by
    simp [firstUpper, hChars, hCase]
  refine ⟨isName_iff.mpr
    ⟨isWord_firstUpper hWord, _, _, hFirst, hLetter⟩, ?_⟩
  rw [← String.toList_inj, ← String.toList_inj, hFirst, hChars]
  show c.toUpper :: rest = ['_'] ↔ c :: rest = ['_']
  simp only [List.cons.injEq]
  refine and_congr_left fun _ => ⟨hOnly, ?_⟩
  intro hUnderscore
  rw [hUnderscore]
  rfl

/- No character is lost in snake case. -/
private theorem snakeChars_eq_nil
    {previous : Option Char}
    {chars : List Char}
    (hWord : ∀ c ∈ chars, isIdentifierPart c = true)
    (h : snakeChars previous chars = []) :
    chars = [] := by
  cases chars with
  | nil => rfl
  | cons c rest =>
      have hSmall :=
        toNat_lt_of_isIdentifierPart (hWord c List.mem_cons_self)
      unfold snakeChars at h
      split at h
      · simp [lowercase, hSmall] at h
      · cases h

/- A name in snake case is a name. -/
theorem isName_snakeCase
    {text : String}
    (h : IsName text) :
    IsName (snakeCase text) ∧
      (snakeCase text = "_" ↔ text = "_") := by
  rcases isName_iff.mp h with ⟨hWord, c, rest, hChars, hc⟩
  rcases letterCase hc with ⟨_, hCase, hLetter, hOnly⟩
  obtain ⟨d, hSnake, hd, hSame⟩ :
      ∃ d,
        (snakeCase text).toList =
            d :: snakeChars (some c) rest ∧
          IsLetter d ∧ (d = '_' ↔ c = '_') := by
    unfold snakeCase
    rw [String.toList_ofList, hChars, snakeChars]
    split
    · next hUpper =>
        refine ⟨c.toLower, by simp [startsWord, hCase], hLetter,
          hOnly, ?_⟩
        intro hUnderscore
        rw [hUnderscore]
        rfl
    · exact ⟨c, rfl, hc, Iff.rfl⟩
  refine ⟨isName_iff.mpr
    ⟨isWord_snakeCase hWord, _, _, hSnake, hd⟩, ?_⟩
  have hRest :
      snakeChars (some c) rest = [] ↔ rest = [] := by
    constructor
    · refine snakeChars_eq_nil fun d hd => hWord d ?_
      rw [hChars]
      exact List.mem_cons_of_mem c hd
    · intro hNil
      rw [hNil]
      rfl
  rw [← String.toList_inj, ← String.toList_inj, hSnake, hChars]
  show d :: _ = ['_'] ↔ c :: rest = ['_']
  simp only [List.cons.injEq, hRest, hSame]

end Names

end TagWire

------------------------------------------------------------
-- Legal Names
------------------------------------------------------------

namespace TagWire

open Grammar Text

namespace Names

/-
  A name that the generated code can use: no underscore alone,
  and no reserved word.
-/
def IsLegal
    (ident : String) : Prop :=
  IsName ident ∧ ident ≠ "_" ∧ ident ∉ reserved

/- Characters that are in no reserved word. -/
def isMark
    (c : Char) :
    Bool :=
  c == '_' || c == 'A' || c == 'H'

private theorem of_mem_reserved
    {word : String}
    (h : word ∈ reserved)
    {c : Char}
    (hc : c ∈ word.toList) :
    isMark c = false := by
  have hAll :
      reserved.all (·.toList.all (! isMark ·)) = true := by
    decide +kernel
  have hWord := List.all_eq_true.mp hAll word h
  simpa using List.all_eq_true.mp hWord c hc

/- A name is legal if a part of it is in no reserved word. -/
theorem isLegal_of_part
    {ident part : String}
    (hName : IsName ident)
    (hPart : part.toList ⊆ ident.toList)
    (hMark : part.toList.any isMark = true)
    (hOther : part.toList.any (· != '_') = true) :
    IsLegal ident := by
  refine ⟨hName, fun hUnderscore => ?_, fun hReserved => ?_⟩
  · rcases List.any_eq_true.mp hOther with ⟨c, hc, hNot⟩
    have hMem := hPart hc
    rw [hUnderscore] at hMem
    exact bne_iff_ne.mp hNot (List.mem_singleton.mp hMem)
  · rcases List.any_eq_true.mp hMark with ⟨c, hc, hMark⟩
    rw [of_mem_reserved hReserved (hPart hc)] at hMark
    cases hMark

/- So it is behind a name, or in front of a word. -/
theorem isLegal_append_right
    {text part : String}
    (hName : IsName text)
    (hWord : IsWord part)
    (hMark : part.toList.any isMark = true)
    (hOther : part.toList.any (· != '_') = true) :
    IsLegal (text ++ part) := by
  refine isLegal_of_part (isName_append hName hWord) ?_ hMark
    hOther
  rw [String.toList_append]
  exact List.subset_append_right _ _

theorem isLegal_append_left
    {part text : String}
    (hName : IsName part)
    (hWord : IsWord text)
    (hMark : part.toList.any isMark = true)
    (hOther : part.toList.any (· != '_') = true) :
    IsLegal (part ++ text) := by
  refine isLegal_of_part (isName_append hName hWord) ?_ hMark
    hOther
  rw [String.toList_append]
  exact List.subset_append_left _ _

/- No escaped name is reserved. -/
theorem escape_not_mem_reserved
    (text : String) :
    escape text ∉ reserved := by
  unfold escape
  split
  · intro hMem
    have hMark :=
      of_mem_reserved hMem (c := '_')
        (by simp [String.toList_append])
    cases hMark
  · next hFree => exact hFree

/- Escaping keeps a name, and makes no lone underscore. -/
theorem isName_escape
    {text : String}
    (h : IsName text) :
    IsName (escape text) ∧
      (escape text = "_" ↔ text = "_") := by
  unfold escape
  split
  · next hReserved =>
      have hName := isName_append h isWord_underscore
      rcases isName_iff.mp h with ⟨_, c, rest, hChars, _⟩
      refine ⟨hName, iff_of_false ?_ ?_⟩
      · intro hUnderscore
        have hLength := congrArg (·.toList.length) hUnderscore
        simp [hChars] at hLength
      · intro hUnderscore
        rw [hUnderscore] at hReserved
        exact absurd hReserved (by decide +kernel)
  · exact ⟨h, Iff.rfl⟩

/- Escaping makes every name legal but for one. -/
theorem isLegal_escape_iff
    {text : String}
    (h : IsName text) :
    IsLegal (escape text) ↔ text ≠ "_" := by
  rcases isName_escape h with ⟨hName, hUnderscore⟩
  constructor
  · intro hLegal hText
    exact hLegal.2.1 (hUnderscore.mpr hText)
  · intro hText
    exact
      ⟨hName, fun hEscape => hText (hUnderscore.mp hEscape),
        escape_not_mem_reserved text⟩

end Names

end TagWire

------------------------------------------------------------
-- Uses of Names
------------------------------------------------------------

namespace TagWire

open Grammar Text

/- What a declared name is used for in the generated code. -/
inductive NameUse where
| type
| field
| service
| handler
| adapter
| registration
| method
| rawMethod
deriving DecidableEq, Repr

namespace NameUse

/- The name in the generated code. -/
def ident : NameUse → String → String
| type => Names.typeIdent
| field => Names.fieldIdent
| service => Names.serviceIdent
| handler => Names.handlerIdent
| adapter => Names.adapterIdent
| registration => Names.registerIdent
| method => Names.methodIdent
| rawMethod => Names.methodHandlerIdent

/- Whether the name is put together with another word. -/
def isExtended : NameUse → Bool
| handler | adapter | registration | rawMethod => true
| type | field | service | method => false

/- A use whose name is legal as it is, or but for one name. -/
private theorem sound_of_escape
    {name text : String}
    (hName : IsName text)
    (hSame : text = "_" ↔ name = "_") :
    IsName (Names.escape text) ∧
      Names.escape text ∉ Names.reserved ∧
      (Names.IsLegal (Names.escape text) ↔
        (name = "_" → false = true)) := by
  refine ⟨(Names.isName_escape hName).1,
    Names.escape_not_mem_reserved text, ?_⟩
  rw [Names.isLegal_escape_iff hName, Ne, hSame]
  simp

private theorem sound_of_isLegal
    {name ident : String}
    (h : Names.IsLegal ident) :
    IsName ident ∧ ident ∉ Names.reserved ∧
      (Names.IsLegal ident ↔ (name = "_" → true = true)) :=
  ⟨h.1, h.2.2, iff_of_true h fun _ => rfl⟩

/-
  Names are used under names again, none of them reserved. All
  are legal, except that an underscore stays one where it is
  not put together with another word.
-/
theorem isLegal_ident_iff_of_isName
    (use : NameUse)
    {name : String}
    (h : IsName name) :
    IsName (use.ident name) ∧
      use.ident name ∉ Names.reserved ∧
      (Names.IsLegal (use.ident name) ↔
        (name = "_" → use.isExtended = true)) := by
  rcases Names.isName_firstUpper h with ⟨hUpper, hUpperOnly⟩
  rcases Names.isName_snakeCase h with ⟨hSnake, hSnakeOnly⟩
  have hService : IsName (Names.serviceIdent name) :=
    (Names.isName_escape hUpper).1
  cases use with
  | type => exact sound_of_escape h Iff.rfl
  | field => exact sound_of_escape hSnake hSnakeOnly
  | service => exact sound_of_escape hUpper hUpperOnly
  | method => exact sound_of_escape hSnake hSnakeOnly
  | handler =>
      exact sound_of_isLegal
        (Names.isLegal_append_right hService
          (by decide +kernel) (by decide +kernel)
          (by decide +kernel))
  | adapter =>
      exact sound_of_isLegal
        (Names.isLegal_append_right hService
          (by decide +kernel) (by decide +kernel)
          (by decide +kernel))
  | registration =>
      have hName : IsName "register_" :=
        isIdentifier_iff.mp (by decide +kernel)
      exact sound_of_isLegal
        (Names.isLegal_append_left hName
          (isName_iff.mp hSnake).1 (by decide +kernel)
          (by decide +kernel))
  | rawMethod =>
      exact sound_of_isLegal
        (Names.isLegal_append_right hSnake
          (by decide +kernel) (by decide +kernel)
          (by decide +kernel))

end NameUse

end TagWire

------------------------------------------------------------
-- Declared Names
------------------------------------------------------------

namespace TagWire

open Grammar

namespace Schema

variable {ρ : Type}

/- The declared names of a schema, with their uses. -/
inductive Uses (s : Schema ρ) : NameUse → String → Prop
| enum
    {e : EnumDecl}
    (he : e ∈ s.enums) :
    Uses s .type e.name
| variant
    {e : EnumDecl}
    {variant : String}
    (he : e ∈ s.enums)
    (hVariant : variant ∈ e.variants) :
    Uses s .type variant
| message
    {m : Message ρ}
    (hm : m ∈ s.messages) :
    Uses s .type m.name
| field
    {m : Message ρ}
    {f : Field ρ}
    (hm : m ∈ s.messages)
    (hf : f ∈ m.fields) :
    Uses s .field f.name
| service
    {service : Service}
    {use : NameUse}
    (hService : service ∈ s.services)
    (hUse :
      use ∈ [.service, .handler, .adapter, .registration]) :
    Uses s use service.name
| method
    {service : Service}
    {method : Method}
    {use : NameUse}
    (hService : service ∈ s.services)
    (hMethod : method ∈ service.methods)
    (hUse : use ∈ [.method, .rawMethod]) :
    Uses s use method.name

end Schema

namespace Grammar

/- What is repeated is written by some of the tokens. -/
theorem IsRepeated.exists_of_mem
    {α : Type}
    {IsOne : List Token → α → Prop}
    {ts : List Token}
    {as : List α}
    (h : IsRepeated IsOne ts as)
    {a : α}
    (ha : a ∈ as) :
    ∃ us, IsOne us a := by
  induction h with
  | nil => cases ha
  | cons hHead _ ih =>
      rcases List.mem_cons.mp ha with rfl | hRest
      · exact ⟨_, hHead⟩
      · exact ih hRest

/- Variants are written as names. -/
theorem IsVariants.isName_of_mem
    {ts : List Token}
    {names : List String}
    (h : IsVariants ts names)
    {name : String}
    (hName : name ∈ names) :
    IsName name := by
  induction h with
  | nil => cases hName
  | last hFirst =>
      obtain rfl := List.mem_singleton.mp hName
      exact hFirst.2
  | cons hFirst _ _ ih =>
      rcases List.mem_cons.mp hName with rfl | hRest
      · exact hFirst.2
      · exact ih hRest

theorem IsField.isName
    {ts : List Token}
    {f : Field String}
    (h : IsField ts f) :
    IsName f.name := by
  cases h with
  | required hField =>
      cases hField with
      | intro _ _ _ _ _ hName _ => exact hName.2
  | optional _ hField =>
      cases hField with
      | intro _ _ _ _ _ hName _ => exact hName.2

theorem IsMethod.isName
    {ts : List Token}
    {m : Method}
    (h : IsMethod ts m) :
    IsName m.name := by
  cases h with
  | intro hName _ _ _ _ _ => exact hName.2

/- The declarations of a schema are written as such. -/
private theorem IsSchema.exists_enum
    {ts : List Token}
    {s : ParsedSchema}
    (h : IsSchema ts s)
    {e : EnumDecl}
    (he : e ∈ s.enums) :
    ∃ us, IsDeclaration us (.enum e) := by
  rcases h with ⟨hDeclarations, _⟩
  rcases List.mem_filterMap.mp he with ⟨d, hd, hEnum⟩
  cases d <;> cases hEnum
  exact hDeclarations.exists_of_mem hd

private theorem IsSchema.exists_message
    {ts : List Token}
    {s : ParsedSchema}
    (h : IsSchema ts s)
    {m : Message String}
    (hm : m ∈ s.messages) :
    ∃ us, IsDeclaration us (.message m) := by
  rcases h with ⟨hDeclarations, _⟩
  rcases List.mem_filterMap.mp hm with ⟨d, hd, hMessage⟩
  cases d <;> cases hMessage
  exact hDeclarations.exists_of_mem hd

private theorem IsSchema.exists_service
    {ts : List Token}
    {s : ParsedSchema}
    (h : IsSchema ts s)
    {service : Service}
    (hService : service ∈ s.services) :
    ∃ us, IsDeclaration us (.service service) := by
  rcases h with ⟨hDeclarations, _⟩
  rcases List.mem_filterMap.mp hService with ⟨d, hd, hSame⟩
  cases d <;> cases hSame
  exact hDeclarations.exists_of_mem hd

/- Everything that a schema declares has a name. -/
theorem IsSchema.isName_of_uses
    {ts : List Token}
    {s : ParsedSchema}
    (h : IsSchema ts s)
    {use : NameUse}
    {name : String}
    (hUse : s.Uses use name) :
    IsName name := by
  cases hUse with
  | enum he =>
      rcases h.exists_enum he with ⟨us, hEnum⟩
      cases hEnum with
      | enum _ hName _ _ _ =>
          exact (Names.isName_firstUpper hName.2).1
  | variant he hVariant =>
      rcases h.exists_enum he with ⟨us, hEnum⟩
      cases hEnum with
      | enum _ _ _ hVariants _ =>
          rcases List.mem_map.mp hVariant with
            ⟨word, hWord, rfl⟩
          have hName := hVariants.isName_of_mem hWord
          exact (Names.isName_firstUpper hName).1
  | message hm =>
      rcases h.exists_message hm with ⟨us, hMessage⟩
      cases hMessage with
      | message _ hName _ _ _ =>
          exact (Names.isName_firstUpper hName.2).1
  | field hm hf =>
      rcases h.exists_message hm with ⟨us, hMessage⟩
      cases hMessage with
      | message _ _ _ hFields _ =>
          rcases hFields.exists_of_mem hf with ⟨vs, hField⟩
          exact hField.isName
  | service hService _ =>
      rcases h.exists_service hService with ⟨us, hOne⟩
      cases hOne with
      | service _ hName _ _ _ => exact hName.2
  | method hService hMethod _ =>
      rcases h.exists_service hService with ⟨us, hOne⟩
      cases hOne with
      | service _ _ _ hMethods _ =>
          rcases hMethods.exists_of_mem hMethod with
            ⟨vs, hMethod⟩
          exact hMethod.isName

end Grammar

end TagWire

------------------------------------------------------------
-- Compiled Schemas
------------------------------------------------------------

namespace TagWire

open Grammar

namespace Schema

variable {use : NameUse}
variable {name : String}

/- Resolving a schema leaves the declared names as they are. -/
theorem uses_of_uses_resolution
    {s : ParsedSchema}
    (h : s.resolution.Uses use name) :
    s.Uses use name := by
  cases h with
  | enum he => exact .enum he
  | variant he hVariant => exact .variant he hVariant
  | message hm =>
      rcases List.mem_map.mp hm with ⟨m, hm', rfl⟩
      exact .message hm'
  | field hm hf =>
      rcases List.mem_map.mp hm with ⟨m, hm', rfl⟩
      rcases List.mem_map.mp hf with ⟨f, hf', rfl⟩
      exact .field hm' hf'
  | service hService hUse =>
      rcases List.mem_map.mp hService with
        ⟨service, hService', rfl⟩
      show s.Uses use service.name
      exact .service hService' hUse
  | method hService hMethod hUse =>
      rcases List.mem_map.mp hService with
        ⟨service, hService', rfl⟩
      rcases List.mem_map.mp hMethod with
        ⟨method, hMethod', rfl⟩
      show s.Uses use method.name
      exact .method hService' hMethod' hUse

/- All that a compiled schema declares has a name. -/
theorem isName_of_uses
    {text : String}
    {s : ResolvedSchema}
    (hCompile : compile text = .ok s)
    (h : s.Uses use name) :
    IsName name := by
  rcases Outcome.bind_eq_ok_iff.mp hCompile with
    ⟨parsed, hParse, hResolve⟩
  have hDerived :=
    isSchema_of_parse_eq_ok (endsOnce_tokenize text)
      (parseSource_eq_ok_iff.mp hParse)
  have hResolved := Outcome.mapError_eq_ok_iff.mp hResolve
  rcases resolve_eq_ok_iff.mp hResolved with ⟨_, rfl⟩
  exact hDerived.isName_of_uses (uses_of_uses_resolution h)

/-
  Every name of the code that is generated for a schema is a
  name again, and none is reserved. It is legal, unless it is
  made of the lone underscore and of nothing else.
-/
theorem isLegal_ident_iff
    {text : String}
    {s : ResolvedSchema}
    (hCompile : compile text = .ok s)
    (hUse : s.Uses use name) :
    IsName (use.ident name) ∧
      use.ident name ∉ Names.reserved ∧
      (Names.IsLegal (use.ident name) ↔
        (name = "_" → use.isExtended = true)) :=
  use.isLegal_ident_iff_of_isName
    (isName_of_uses hCompile hUse)

/- A text with reserved words, and a service without a name. -/
def reservedText : String :=
  "message self { seq=1 int32 Type; } " ++
    "service _ { await(self); }"

def reservedField : Field TypeRef :=
  ⟨"Type", 1, false, .scalar (.num (.int .int32)), ⟨1, 16⟩⟩

def reservedMessage : Message TypeRef :=
  ⟨"Self", [reservedField], ⟨1, 1⟩⟩

def namelessService : Service :=
  ⟨"_", [⟨"await", "Self", none, ⟨1, 48⟩⟩], ⟨1, 36⟩⟩

def reservedSchema : ResolvedSchema where
  enums := []
  messages := [reservedMessage]
  services := [namelessService]

/- The words are escaped, and the service has a raw form. -/
theorem isLegal_ident_iff_reserved :
    compile reservedText = .ok reservedSchema ∧
    reservedSchema.Uses .field "Type" ∧
    Names.IsLegal "type_" ∧
    reservedSchema.Uses .handler "_" ∧
    Names.IsLegal "_Handler" ∧
    reservedSchema.Uses .service "_" ∧
    ¬ Names.IsLegal "_" := by
  have hCompile :
      compile reservedText = .ok reservedSchema := by
    apply Outcome.eq_ok_of_toOption
    decide +kernel
  have hField :
      reservedSchema.Uses .field reservedField.name :=
    .field (m := reservedMessage)
      List.mem_cons_self List.mem_cons_self
  have hServices :
      ∀ use ∈ [NameUse.service, .handler, .adapter,
        .registration],
        reservedSchema.Uses use namelessService.name :=
    fun use hUse => .service List.mem_cons_self hUse
  have hHandler := hServices .handler (by decide)
  have hService := hServices .service (by decide)
  have hType :
      NameUse.field.ident reservedField.name = "type_" := by
    decide +kernel
  have hRaw :
      NameUse.handler.ident namelessService.name =
        "_Handler" := by
    decide +kernel
  have hLone :
      NameUse.service.ident namelessService.name = "_" := by
    decide +kernel
  have hTypeLegal := (isLegal_ident_iff hCompile hField).2.2
  have hRawLegal := (isLegal_ident_iff hCompile hHandler).2.2
  have hLoneLegal := (isLegal_ident_iff hCompile hService).2.2
  rw [hType] at hTypeLegal
  rw [hRaw] at hRawLegal
  rw [hLone] at hLoneLegal
  exact
    ⟨hCompile, hField, hTypeLegal.mpr (by decide), hHandler,
      hRawLegal.mpr (fun _ => rfl), hService,
      fun h => absurd (hLoneLegal.mp h rfl) (by decide)⟩

/- A text that declares a message without a name. -/
def namelessText : String :=
  "message _ { }"

def namelessMessage : Message TypeRef :=
  ⟨"_", [], ⟨1, 1⟩⟩

def namelessSchema : ResolvedSchema where
  enums := []
  messages := [namelessMessage]
  services := []

/- The text compiles, to code in which the message has none. -/
theorem not_isLegal_nameless :
    compile namelessText = .ok namelessSchema ∧
    namelessSchema.Uses .type "_" ∧
    ¬ Names.IsLegal (NameUse.type.ident "_") := by
  have hMessage :
      namelessSchema.Uses .type namelessMessage.name :=
    .message List.mem_cons_self
  refine ⟨?_, hMessage, ?_⟩
  · apply Outcome.eq_ok_of_toOption
    decide +kernel
  · intro hLegal
    exact hLegal.2.1 (by decide +kernel)

end Schema

end TagWire
