import TagWire.Schema.Decl
import TagWire.Schema.Stream

/-
  This file defines the grammar of schemas as parsers. The
  first token that does not fit ends the whole parse.

  Key definitions include:
    * `isIdentifier`
    * `seqNumber?`
    * `Parser.typeExpr`
    * `Parser.field`
    * `Parser.method`
    * `Parser.declaration`
    * `parse`
    * `parseText`
-/

namespace TagWire

------------------------------------------------------------
-- Names and Numbers
------------------------------------------------------------

/- Whether a character may start an identifier. -/
def isIdentifierStart
    (c : Char) :
    Bool :=
  c.isAlpha || c == '_'

/- Whether a character may continue an identifier. -/
def isIdentifierPart
    (c : Char) :
    Bool :=
  c.isAlphanum || c == '_'

/-
  Whether a text is an identifier: ASCII letters, digits and
  underscores, not starting with a digit.
-/
def isIdentifier
    (text : String) :
    Bool :=
  match text.toList with
  | [] => false
  | c :: cs => isIdentifierStart c && cs.all isIdentifierPart

/- The number that some decimal digits stand for. -/
def decimalValue
    (cs : List Char) :
    Nat :=
  cs.foldl (fun n c => 10 * n + (c.toNat - '0'.toNat)) 0

/- The digits of a number that may have a plus sign. -/
def dropPlus : List Char → List Char
| '+' :: cs => cs
| cs => cs

/-
  The sequence number that a text stands for. It may have a
  plus sign and leading zeros, and is at most 255.
-/
def seqNumber?
    (text : String) :
    Option UInt8 :=
  let digits := dropPlus text.toList
  if isDigits digits && decimalValue digits ≤ 255 then
    some (UInt8.ofNat (decimalValue digits))
  else
    none

namespace Parser

/- Take an identifier. -/
def name
    (e : Expectation) :
    Parser String := do
  let t ← expect e
  if isIdentifier t.text then
    return t.text
  else
    reject .invalidIdentifier t

/- Take a sequence number. -/
def seqNumber : Parser UInt8 := do
  let t ← expect .number
  match seqNumber? t.text with
  | some n => return n
  | none => reject .invalidSeq t

/- Taking a name brings nothing back. -/
theorem nonGrowing_name
    (e : Expectation) :
    NonGrowing (name e) := by
  apply nonGrowing_bind (nonGrowing_expect e)
  intro t
  split
  · exact nonGrowing_pure _
  · exact nonGrowing_reject _ _

/- Taking a sequence number brings nothing back. -/
theorem nonGrowing_seqNumber :
    NonGrowing seqNumber := by
  apply nonGrowing_bind (nonGrowing_expect .number)
  intro t
  split
  · exact nonGrowing_pure _
  · exact nonGrowing_reject _ _

/- A name is taken as the identifier it is. -/
theorem expect_of_name
    {e : Expectation}
    {s s₁ : TokenStream}
    {n : String}
    (h : name e s = .ok (n, s₁)) :
    ∃ t, expect e s = .ok (t, s₁) := by
  obtain ⟨t, s₂, hExpect, hCheck⟩ := exists_of_bind_eq_ok h
  refine ⟨t, ?_⟩
  split at hCheck
  · cases hCheck
    exact hExpect
  · cases hCheck

/- A name followed by what is no name progresses. -/
theorem progresses_name_expect
    {α : Type}
    {a b : Expectation}
    {f : String → Token → Parser α}
    (hDisjoint : ∀ t, a.admits t → ¬ b.admits t)
    (hf : ∀ n u, NonGrowing (f n u)) :
    Progresses (name a >>= fun n => expect b >>= f n) := by
  intro s r s' h
  obtain ⟨n, s₁, hFirst, hRest⟩ := exists_of_bind_eq_ok h
  obtain ⟨t, hExpect⟩ := expect_of_name hFirst
  exact length_lt_of_expect_expect hDisjoint (hf n)
    hExpect hRest

/- A token of another kind behind a name is another one. -/
theorem length_advance_lt_of_name
    {s s₁ : TokenStream}
    {n : String}
    (h : name .identifier s = .ok (n, s₁))
    (hKind : s₁.current.kind ≠ .identifier) :
    s₁.advance.length < s.length := by
  obtain ⟨t, hExpect⟩ := expect_of_name h
  obtain ⟨hAdmits, _, rfl⟩ := eq_of_expect hExpect
  have hLt : s.advance.length < s.length := by
    apply TokenStream.length_advance_lt
    intro hSame
    rw [hSame] at hKind
    exact hKind (by simpa [Expectation.admits] using hAdmits)
  have hStep := s.advance.length_advance_le
  omega

------------------------------------------------------------
-- Types
------------------------------------------------------------

/- Take the bracket that opens the element type of a list. -/
def listOpening : Parser Unit := do
  let _ ← expect (.mark .leftBracket)

/- Take the key type of a map, in its brackets. -/
def mapOpening : Parser ScalarKind := do
  let _ ← expect (.mark .leftBracket)
  let t ← expect .mapKey
  let _ ← expect (.mark .rightBracket)
  match ScalarKind.ofName? t.text with
  | some key => return key
  | none => reject (.expected .mapKey) t

private theorem not_leftBracket_of_type
    (t : Token)
    (h : Expectation.type.admits t) :
    ¬ (Expectation.mark .leftBracket).admits t := by
  intro hMark
  simp only [Expectation.admits, beq_iff_eq] at h hMark
  simp [hMark] at h

private theorem length_lt_of_listOpening
    {s s₁ s₂ : TokenStream}
    {t : Token}
    {u : Unit}
    (h : expect .type s = .ok (t, s₁))
    (hOpen : listOpening s₁ = .ok (u, s₂)) :
    s₂.length < s.length :=
  length_lt_of_expect_expect not_leftBracket_of_type
    (fun _ => nonGrowing_pure ()) h hOpen

private theorem length_lt_of_mapOpening
    {s s₁ s₂ : TokenStream}
    {t : Token}
    {key : ScalarKind}
    (h : expect .type s = .ok (t, s₁))
    (hOpen : mapOpening s₁ = .ok (key, s₂)) :
    s₂.length < s.length := by
  refine length_lt_of_expect_expect not_leftBracket_of_type
    (fun _ => ?_) h hOpen
  apply nonGrowing_bind (nonGrowing_expect _)
  intro t
  apply nonGrowing_bind (nonGrowing_expect _)
  intro _
  split
  · exact nonGrowing_pure _
  · exact nonGrowing_reject _ _

/-
  Take a type: a name, a scalar, or a list or map of types
  nested to any depth.
-/
def typeExpr
    (s : TokenStream) :
    Except ParseError (TypeExpr String × TokenStream) :=
  match hType : expect .type s with
  | .error e => .error e
  | .ok (t, s₁) =>
      if t.kind = .identifier then
        if isIdentifier t.text then
          .ok (.named t.text, s₁)
        else
          .error ⟨.invalidIdentifier, t⟩
      else if t.text = "list" then
        match hOpen : listOpening s₁ with
        | .error e => .error e
        | .ok (_, s₂) =>
            have _hLt := length_lt_of_listOpening hType hOpen
            match typeExpr s₂ with
            | .error e => .error e
            | .ok (element, s₃) =>
                match expect (.mark .rightBracket) s₃ with
                | .error e => .error e
                | .ok (_, s₄) => .ok (.list element, s₄)
      else if t.text = "map" then
        match hOpen : mapOpening s₁ with
        | .error e => .error e
        | .ok (key, s₂) =>
            have _hLt := length_lt_of_mapOpening hType hOpen
            match typeExpr s₂ with
            | .error e => .error e
            | .ok (value, s₃) => .ok (.map key value, s₃)
      else
        match ScalarKind.ofName? t.text with
        | some kind => .ok (.scalar kind, s₁)
        | none => .error ⟨.unexpected, t⟩
termination_by s.length

/- Taking a type brings nothing back. -/
theorem nonGrowing_typeExpr :
    NonGrowing typeExpr := by
  intro s
  fun_induction typeExpr s
  all_goals
    intro _ _ h
    cases h
  case case2 s t s₁ hType _ _ =>
    exact nonGrowing_expect _ _ _ _ hType
  case case7 s _ _ _ _ _ _ s₂ _ hLt element s₃ hElement _ s₄ hClose ih =>
    have hClosed := nonGrowing_expect _ _ _ _ hClose
    have hInner := ih element s₃ hElement
    omega
  case case10 s _ _ _ _ _ _ key s₂ _ hLt value s₃ hValue ih =>
    have hInner := ih value s₃ hValue
    omega
  case case11 s t s₁ hType _ _ _ _ _ =>
    exact nonGrowing_expect _ _ _ _ hType

------------------------------------------------------------
-- Fields and Methods
------------------------------------------------------------

/- Take a field of a message. -/
def field : Parser (Field String) := do
  let start ← peek
  let optional ← accept (.keyword .optional)
  let _ ← expect (.keyword .seq)
  let _ ← expect (.mark .assign)
  let seq ← seqNumber
  let type ← typeExpr
  let fieldName ← name .identifier
  let _ ← expect (.mark .semicolon)
  return ⟨fieldName, seq, optional, type, start.position⟩

/- Take the reply of a method, if it has one. -/
def response : Parser (Option String) := do
  let hasResponse ← accept (.keyword .return)
  if hasResponse then
    let _ ← expect (.mark .leftParen)
    let responseName ← name .responseType
    let _ ← expect (.mark .rightParen)
    return some responseName
  else
    return none

/- Take a method of a service. -/
def method : Parser Method := do
  let start ← peek
  let methodName ← name .methodName
  let _ ← expect (.mark .leftParen)
  let request ← name .requestType
  let _ ← expect (.mark .rightParen)
  let reply ← response
  let _ ← expect (.mark .semicolon)
  return ⟨methodName, request, reply, start.position⟩

private theorem not_mark_of_keyword
    {k : Keyword}
    {m : Mark}
    (t : Token)
    (h : (Expectation.keyword k).admits t) :
    ¬ (Expectation.mark m).admits t := by
  intro hMark
  simp only [Expectation.admits, beq_iff_eq] at h hMark
  simp [hMark] at h

private theorem not_mark_of_methodName
    {m : Mark}
    (t : Token)
    (h : Expectation.methodName.admits t) :
    ¬ (Expectation.mark m).admits t := by
  intro hMark
  simp only [Expectation.admits, beq_iff_eq] at h hMark
  simp [hMark] at h

private theorem not_identifier_of_keyword
    {k : Keyword}
    (t : Token)
    (h : (Expectation.keyword k).admits t) :
    ¬ Expectation.identifier.admits t := by
  intro hName
  simp only [Expectation.admits, beq_iff_eq] at h hName
  simp [hName] at h

/- Taking a reply brings nothing back. -/
theorem nonGrowing_response :
    NonGrowing response := by
  apply nonGrowing_bind (nonGrowing_accept _)
  intro hasResponse
  split
  · apply nonGrowing_bind (nonGrowing_expect _)
    intro _
    apply nonGrowing_bind (nonGrowing_name _)
    intro _
    apply nonGrowing_bind (nonGrowing_expect _)
    intro _
    exact nonGrowing_pure _
  · exact nonGrowing_pure _

/- A field takes tokens: its keyword and its mark differ. -/
theorem progresses_field :
    Progresses field := by
  apply progresses_bind_right nonGrowing_peek
  intro start
  apply progresses_bind_right (nonGrowing_accept _)
  intro optional
  apply progresses_expect_expect not_mark_of_keyword
  intro _ _
  apply nonGrowing_bind nonGrowing_seqNumber
  intro seq
  apply nonGrowing_bind nonGrowing_typeExpr
  intro type
  apply nonGrowing_bind (nonGrowing_name _)
  intro fieldName
  apply nonGrowing_bind (nonGrowing_expect _)
  intro _
  exact nonGrowing_pure _

/- A method takes tokens: its name is no mark. -/
theorem progresses_method :
    Progresses method := by
  apply progresses_bind_right nonGrowing_peek
  intro start
  apply progresses_name_expect not_mark_of_methodName
  intro methodName _
  apply nonGrowing_bind (nonGrowing_name _)
  intro request
  apply nonGrowing_bind (nonGrowing_expect _)
  intro _
  apply nonGrowing_bind nonGrowing_response
  intro reply
  apply nonGrowing_bind (nonGrowing_expect _)
  intro _
  exact nonGrowing_pure _

------------------------------------------------------------
-- Declarations
------------------------------------------------------------

/-
  Take the variants of an enum. They are separated by commas,
  and the last one may be followed by a comma too.
-/
def variants
    (s : TokenStream) :
    Except ParseError (List String × TokenStream) :=
  if s.current.kind = .identifier then
    match hName : name .identifier s with
    | .error e => .error e
    | .ok (variant, s₁) =>
        if hComma : s₁.current.kind = .mark .comma then
          have _hLt : s₁.advance.length < s.length :=
            length_advance_lt_of_name hName (by simp [hComma])
          match variants s₁.advance with
          | .error e => .error e
          | .ok (rest, s₂) => .ok (variant :: rest, s₂)
        else
          .ok ([variant], s₁)
  else
    .ok ([], s)
termination_by s.length

/- Taking variants brings nothing back. -/
theorem nonGrowing_variants :
    NonGrowing variants := by
  intro s
  fun_induction variants s
  all_goals
    intro _ _ h
    cases h
  case case3 s _ _ _ _ _ hLt rest s₂ hRest ih =>
    have hInner := ih rest s₂ hRest
    omega
  case case4 s _ _ _ hName _ =>
    exact nonGrowing_name _ _ _ _ hName
  case case5 => exact Nat.le_refl _

/-
  Take the keyword of a declaration and the name behind it,
  with the place of the keyword.
-/
def heading
    (k : Keyword) :
    Parser (Position × String) := do
  let t ← expect (.keyword k)
  let declared ← name .identifier
  return (t.position, declared)

/- Take an enum. -/
def enumDecl : Parser (Declaration String) := do
  let (start, enumName) ← heading .enum
  let _ ← expect (.mark .leftBrace)
  let variantNames ← variants
  let _ ← expect (.mark .rightBrace)
  return .enum
    ⟨Names.firstUpper enumName,
      variantNames.map Names.firstUpper, start⟩

/- Take a message. -/
def messageDecl : Parser (Declaration String) := do
  let (start, messageName) ← heading .message
  let _ ← expect (.mark .leftBrace)
  let fields ←
    manyUntil field progresses_field (.mark .rightBrace)
  return .message
    ⟨Names.firstUpper messageName, fields, start⟩

/- Take a service. -/
def serviceDecl : Parser (Declaration String) := do
  let (start, serviceName) ← heading .service
  let _ ← expect (.mark .leftBrace)
  let methods ←
    manyUntil method progresses_method (.mark .rightBrace)
  return .service ⟨serviceName, methods, start⟩

/- Take a declaration of any sort. -/
def declaration : Parser (Declaration String) := do
  let t ← peek
  match t.kind with
  | .keyword .enum => enumDecl
  | .keyword .message => messageDecl
  | .keyword .service => serviceDecl
  | _ => reject .unexpected t

/- A heading takes tokens: a keyword is no name. -/
theorem progresses_heading
    (k : Keyword) :
    Progresses (heading k) := by
  unfold heading name
  simp only [bind_assoc]
  apply progresses_expect_expect not_identifier_of_keyword
  intro _ t
  apply nonGrowing_bind
  · split
    · exact nonGrowing_pure _
    · exact nonGrowing_reject _ _
  · intro _
    exact nonGrowing_pure _

/- A declaration takes tokens, as its heading does. -/
theorem progresses_declaration :
    Progresses declaration := by
  apply progresses_bind_right nonGrowing_peek
  intro t
  split
  · apply progresses_bind_left (progresses_heading _)
    intro _
    apply nonGrowing_bind (nonGrowing_expect _)
    intro _
    apply nonGrowing_bind nonGrowing_variants
    intro _
    apply nonGrowing_bind (nonGrowing_expect _)
    intro _
    exact nonGrowing_pure _
  · apply progresses_bind_left (progresses_heading _)
    intro _
    apply nonGrowing_bind (nonGrowing_expect _)
    intro _
    apply nonGrowing_bind (nonGrowing_manyUntil _ _ _)
    intro _
    exact nonGrowing_pure _
  · apply progresses_bind_left (progresses_heading _)
    intro _
    apply nonGrowing_bind (nonGrowing_expect _)
    intro _
    apply nonGrowing_bind (nonGrowing_manyUntil _ _ _)
    intro _
    exact nonGrowing_pure _
  · intro s a s' h
    cases h

end Parser

------------------------------------------------------------
-- Schemas
------------------------------------------------------------

/- The schema that some tokens declare. -/
def parse
    (tokens : List Token) :
    Except ParseError ParsedSchema := do
  let (ds, _) ←
    Parser.declaration.manyUntil Parser.progresses_declaration
      .endOfText (TokenStream.ofTokens tokens)
  return Schema.ofDeclarations ds

/- The schema that a text declares. -/
def parseText
    (text : String) :
    Except ParseError ParsedSchema :=
  parse (tokenize text)

end TagWire
