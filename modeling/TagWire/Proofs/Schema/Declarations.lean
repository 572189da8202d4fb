import TagWire.Proofs.Schema.Members

/-
  The parsers of declarations follow the grammar. A variant
  can be followed by a comma or by the brace that closes its
  enum, so variants are recognized together with that brace.

  Main declarations:
    * `Parser.recognizes_closedVariants`
    * `Parser.recognizes_block`
    * `Parser.recognizes_declaration`
-/

------------------------------------------------------------
-- Variants
------------------------------------------------------------

namespace TagWire

namespace Parser

open Grammar

/- Take variants, and the brace that closes their enum. -/
def closedVariants : Parser (List String) := do
  let names ← variants
  let _ ← expect (.mark .rightBrace)
  return names

/- Variants, and the brace that closes their enum. -/
def IsClosedVariants
    (ts : List Token)
    (names : List String) : Prop :=
  ∃ us t,
    ts = us ++ [t] ∧ IsVariants us names ∧
      t.kind = .mark .rightBrace

/- Take a variant and what is behind it, up to the brace. -/
def variantOnwards : Parser (List String) := do
  let variant ← name .identifier
  let more ← accept (.mark .comma)
  if more then
    let names ← closedVariants
    return variant :: names
  else
    let _ ← expect (.mark .rightBrace)
    return [variant]

/- A brace closes an enum where no further variant starts. -/
theorem closedVariants_of_ne
    {s : TokenStream}
    (h : s.current.kind ≠ .identifier) :
    closedVariants s =
      (expect (.mark .rightBrace) >>= fun _ => pure []) s := by
  have hNone : variants s = .ok ([], s) := by
    rw [variants, if_neg h]
  exact bind_of_ok hNone

/- Behind a variant, others come after a comma only. -/
theorem variants_of_ok
    {s s' : TokenStream}
    {variant : String}
    (h : s.current.kind = .identifier)
    (hName : name .identifier s = .ok (variant, s')) :
    variants s =
      if s'.current.kind = .mark .comma then
        (variants s'.advance).map
          (fun r => (variant :: r.1, r.2))
      else
        .ok ([variant], s') := by
  rw [variants, if_pos h]
  split
  · next he =>
      rw [hName] at he
      cases he
  · next he =>
      rw [hName] at he
      cases he
      split
      · cases variants s'.advance <;> rfl
      · rfl

theorem variants_of_error
    {s : TokenStream}
    {e : ParseError}
    (h : s.current.kind = .identifier)
    (hName : name .identifier s = .error e) :
    variants s = .error e := by
  rw [variants, if_pos h]
  split
  · next e' he =>
      rw [hName] at he
      cases he
      rfl
  · next he =>
      rw [hName] at he
      cases he

/- Up to the brace, variants are taken one by one. -/
theorem closedVariants_of_eq
    {s : TokenStream}
    (h : s.current.kind = .identifier) :
    closedVariants s = variantOnwards s := by
  unfold variantOnwards
  have hClosed :
      ∀ s', closedVariants s' =
        (variants >>= fun names =>
          expect (.mark .rightBrace) >>= fun _ =>
            pure names) s' :=
    fun _ => rfl
  cases hName : name .identifier s with
  | error e =>
      rw [bind_of_error hName, hClosed]
      exact bind_of_error (variants_of_error h hName)
  | ok r =>
      rcases r with ⟨variant, s₁⟩
      have hVariants := variants_of_ok h hName
      rw [bind_of_ok hName, bind_accept]
      split
      · next hComma =>
          -- Both take the rest and the brace, and then put the
          -- variant in front, in another order.
          rw [if_pos hComma] at hVariants
          cases hRest : variants s₁.advance with
          | error e =>
              rw [hRest] at hVariants
              rw [hClosed, bind_of_error hVariants]
              exact (bind_of_error (bind_of_error hRest)).symm
          | ok r =>
              rw [hRest] at hVariants
              rw [hClosed, bind_of_ok hVariants]
              unfold closedVariants
              simp only [bind_assoc, pure_bind, if_true]
              rw [bind_of_ok hRest]
      · next hOther =>
          rw [if_neg hOther] at hVariants
          rw [hClosed, bind_of_ok hVariants]
          rfl

theorem takes_closedVariants :
    Takes closedVariants IsClosedVariants where
  inhabited :=
    ⟨[⟨.mark .rightBrace, "", .first⟩], [], [], _, rfl, .nil,
      rfl⟩
  inner := by
    rintro ts names ⟨us, t, rfl, hVariants, hBrace⟩
    induction hVariants with
    | nil => simp [hBrace]
    | last hName => simp [hName.1, hBrace]
    | cons hName hComma _ ih =>
        simpa [hName.1, hComma] using ih
  complete := by
    rintro ts names s ⟨us, t, rfl, hVariants, hBrace⟩
    have hClosing :=
      (recognizes_mark (n := 0) .rightBrace).complete
        [t] t s ⟨t, rfl, hBrace, rfl⟩
    have hTaken :
        ∀ {u : Token} (vs : List Token),
          IsIdentifier u →
            closedVariants (s.prepend (u :: vs)) =
              (accept (.mark .comma) >>= fun more =>
                if more then
                  closedVariants >>= fun names =>
                    pure (u.text :: names)
                else
                  expect (.mark .rightBrace) >>= fun _ =>
                    pure [u.text]) (s.prepend vs) := by
      intro u vs hName
      have hFirst :=
        (recognizes_name (n := 0) .identifier
          fun _ => rfl).complete
            [u] u.text (s.prepend vs) ⟨u, rfl, hName, rfl⟩
      rw [closedVariants_of_eq]
      · exact bind_of_ok hFirst
      · exact hName.1
    induction hVariants with
    | nil =>
        rw [List.nil_append, closedVariants_of_ne]
        · exact bind_of_ok hClosing
        · simp [hBrace]
    | last hName =>
        rw [List.singleton_append, hTaken [t] hName,
          bind_accept, if_neg]
        · exact bind_of_ok hClosing
        · simp [hBrace]
    | cons hName hComma _ ih =>
        rw [List.cons_append, hTaken _ hName, List.cons_append,
          bind_accept, if_pos]
        · exact bind_of_ok ih
        · exact hComma

/-
  A variant and what is behind it are recognized, if variants
  are in what is behind it.
-/
theorem recognizes_variantOnwards
    {n : Nat}
    (hInner : Recognizes n closedVariants IsClosedVariants) :
    Recognizes (n + 1) variantOnwards
      (fun ts names =>
        IsClosedVariants ts names ∧
          ∃ t us, ts = t :: us ∧ IsIdentifier t) := by
  unfold variantOnwards
  refine Recognizes.congr
    (recognizes_bind (recognizes_name _ fun _ => rfl)
      fun us _ h =>
      recognizes_accept (by simp)
        (recognizes_bind (hInner.mono ?_) fun _ _ _ =>
          recognizes_pure _)
        (recognizes_bind (recognizes_mark .rightBrace)
          fun _ _ _ => recognizes_pure _)
        ?_)
    fun ts names => ?_
  · rcases h with ⟨t, rfl, _⟩
    exact Nat.le_refl _
  · rintro ts names h
    rw [followed_single_eq_iff] at h
    rcases h with ⟨t, us, rfl, hBrace, _⟩
    exact ⟨t, us, rfl, by simp [hBrace]⟩
  · rw [followed_single_eq_iff]
    constructor
    · rintro ⟨t, _, rfl, hName,
        ⟨comma, _, rfl, hComma,
          _, _, _, rfl, ⟨us, brace, rfl, hVariants, hBrace⟩,
          rfl, rfl⟩ |
        ⟨_, _, _, rfl, ⟨brace, rfl, hBrace, rfl⟩, rfl, rfl⟩⟩
      · rw [List.append_nil]
        exact ⟨⟨t :: comma :: us, brace, rfl,
          .cons hName hComma hVariants, hBrace⟩,
          t, _, rfl, hName⟩
      · exact ⟨⟨[t], _, rfl, .last hName, hBrace⟩,
          t, _, rfl, hName⟩
    · rintro ⟨⟨us, brace, rfl, hVariants, hBrace⟩,
        t, _, hSplit, hStart⟩
      cases hVariants with
      | nil =>
          cases hSplit
          exact absurd (hStart.1.symm.trans hBrace) (by simp)
      | last hName =>
          exact ⟨_, _, rfl, hName, .inr
            ⟨[_], _, [], rfl, ⟨_, rfl, hBrace, rfl⟩, rfl, rfl⟩⟩
      | cons hName hComma hRest =>
          exact ⟨_, _, rfl, hName, .inl ⟨_, _, rfl, hComma,
            _, _, [], (List.append_nil _).symm,
            ⟨_, _, rfl, hRest, hBrace⟩, rfl, rfl⟩⟩

/-
  Variants and their brace are recognized. The induction is on
  the number of tokens, as a variant takes one at least.
-/
theorem recognizes_closedVariants
    (n : Nat) :
    Recognizes n closedVariants IsClosedVariants := by
  induction n with
  | zero =>
      exact ⟨takes_closedVariants,
        fun s _ h => absurd h (Nat.not_lt_zero _)⟩
  | succ n ih =>
      refine ⟨takes_closedVariants, fun s hEnd hLt => ?_⟩
      by_cases hKind : s.current.kind = .identifier
      · have hInner := recognizes_variantOnwards ih
        apply (hInner.follows s hEnd hLt).mono
        · exact fun ts names h => h.1
        · intro s' hSame
          exact closedVariants_of_eq (hSame ▸ hKind)
      · have hBrace :=
          recognizes_bind (n := n + 1)
            (recognizes_mark .rightBrace)
            fun _ _ _ => recognizes_pure ([] : List String)
        apply (hBrace.follows s hEnd hLt).mono
        · rintro ts names h
          rw [followed_single_eq_iff] at h
          rcases h with ⟨t, _, rfl, hClosing, rfl, rfl⟩
          exact ⟨[], t, rfl, .nil, hClosing⟩
        · intro s' hSame
          exact closedVariants_of_ne (hSame ▸ hKind)

end Parser

end TagWire

------------------------------------------------------------
-- Blocks
------------------------------------------------------------

namespace TagWire

namespace Parser

open Grammar

variable {α β : Type}

theorem recognizes_heading
    {n : Nat}
    (k : Keyword) :
    Recognizes n (heading k)
      (fun ts r =>
        ∃ word name,
          ts = [word, name] ∧ word.kind = .keyword k ∧
            IsIdentifier name ∧
            r = (word.position, name.text)) := by
  unfold heading
  refine Recognizes.congr
    (recognizes_bind (recognizes_keyword k) fun _ _ _ =>
      recognizes_bind (recognizes_name _ fun _ => rfl)
        fun _ _ _ =>
      recognizes_pure _)
    fun ts r => ?_
  simp only [followed_single_eq_iff]
  constructor
  · rintro ⟨word, _, rfl, hWord, name, _, rfl, hName, rfl, rfl⟩
    exact ⟨word, name, rfl, hWord, hName, rfl⟩
  · rintro ⟨word, name, rfl, hWord, hName, rfl⟩
    exact ⟨word, _, rfl, hWord, name, _, rfl, hName, rfl, rfl⟩

/- Take a declaration of some sort: a heading, and a body. -/
def block
    (k : Keyword)
    (body : Parser α)
    (build : Position → String → α → β) :
    Parser β := do
  let (start, declared) ← heading k
  let _ ← expect (.mark .leftBrace)
  let a ← body
  return build start declared a

/- The tokens of a declaration whose body is in braces. -/
def IsBlock
    (k : Keyword)
    (IsBody : List Token → α → Prop)
    (build : Position → String → α → β)
    (ts : List Token)
    (b : β) : Prop :=
  ∃ word name opening us closing a,
    ts = word :: name :: opening :: (us ++ [closing]) ∧
      word.kind = .keyword k ∧ IsIdentifier name ∧
      opening.kind = .mark .leftBrace ∧ IsBody us a ∧
      closing.kind = .mark .rightBrace ∧
      b = build word.position name.text a

theorem recognizes_block
    {n : Nat}
    {k : Keyword}
    {body : Parser α}
    {IsBody : List Token → α → Prop}
    (build : Position → String → α → β)
    (hBody :
      ∀ m,
        Recognizes m body
          (fun ts a =>
            ∃ us t,
              ts = us ++ [t] ∧ IsBody us a ∧
                t.kind = .mark .rightBrace)) :
    Recognizes n (block k body build)
      (IsBlock k IsBody build) := by
  refine Recognizes.congr
    (recognizes_bind (recognizes_heading k) fun _ _ _ =>
      recognizes_bind (recognizes_mark .leftBrace) fun _ _ _ =>
      recognizes_bind (hBody _) fun _ _ _ =>
      recognizes_pure _)
    fun ts r => ?_
  constructor
  · rintro ⟨_, _, _, rfl,
      ⟨word, name, rfl, hWord, hName, rfl⟩,
      _, _, _, rfl, ⟨opening, rfl, hOpening, rfl⟩,
      _, a, _, rfl, ⟨us, closing, rfl, hInner, hClosing⟩,
      rfl, rfl⟩
    exact ⟨word, name, _, us, closing, a, by simp, hWord,
      hName, hOpening, hInner, hClosing, rfl⟩
  · rintro ⟨word, name, opening, us, closing, a, rfl, hWord,
      hName, hOpening, hInner, hClosing, rfl⟩
    exact ⟨[_, _], _, _, rfl, ⟨_, _, rfl, hWord, hName, rfl⟩,
      [_], _, _, rfl, ⟨_, rfl, hOpening, rfl⟩,
      _, a, [], (List.append_nil _).symm,
      ⟨_, _, rfl, hInner, hClosing⟩, rfl, rfl⟩

end Parser

end TagWire

------------------------------------------------------------
-- Sorts of Declaration
------------------------------------------------------------

namespace TagWire

namespace Parser

open Grammar

variable {n : Nat}

def ofVariants
    (start : Position)
    (name : String)
    (names : List String) :
    Declaration String :=
  .enum
    ⟨Names.firstUpper name, names.map Names.firstUpper, start⟩

def ofFields
    (start : Position)
    (name : String)
    (fields : List (Field String)) :
    Declaration String :=
  .message ⟨Names.firstUpper name, fields, start⟩

def ofMethods
    (start : Position)
    (name : String)
    (methods : List Method) :
    Declaration String :=
  .service ⟨name, methods, start⟩

/- A declaration is a block of one of three sorts. -/
theorem isDeclaration_iff
    {ts : List Token}
    {d : Declaration String} :
    IsDeclaration ts d ↔
      IsBlock .enum IsVariants ofVariants ts d ∨
      IsBlock .message (IsRepeated IsField) ofFields ts d ∨
      IsBlock .service (IsRepeated IsMethod) ofMethods ts d := by
  constructor
  · rintro (⟨hWord, hName, hOpening, hBody, hClosing⟩ |
      ⟨hWord, hName, hOpening, hBody, hClosing⟩ |
      ⟨hWord, hName, hOpening, hBody, hClosing⟩)
    · exact .inl ⟨_, _, _, _, _, _, rfl, hWord, hName,
        hOpening, hBody, hClosing, rfl⟩
    · exact .inr (.inl ⟨_, _, _, _, _, _, rfl, hWord, hName,
        hOpening, hBody, hClosing, rfl⟩)
    · exact .inr (.inr ⟨_, _, _, _, _, _, rfl, hWord, hName,
        hOpening, hBody, hClosing, rfl⟩)
  · rintro
      (⟨_, _, _, _, _, _, rfl, hWord, hName, hOpening, hBody,
        hClosing, rfl⟩ |
      ⟨_, _, _, _, _, _, rfl, hWord, hName, hOpening, hBody,
        hClosing, rfl⟩ |
      ⟨_, _, _, _, _, _, rfl, hWord, hName, hOpening, hBody,
        hClosing, rfl⟩)
    · exact .enum hWord hName hOpening hBody hClosing
    · exact .message hWord hName hOpening hBody hClosing
    · exact .service hWord hName hOpening hBody hClosing

/- The body of an enum is its variants with their brace. -/
theorem enumDecl_eq :
    enumDecl = block .enum closedVariants ofVariants := by
  simp [enumDecl, block, closedVariants, ofVariants]

theorem recognizes_enumDecl :
    Recognizes n enumDecl
      (IsBlock .enum IsVariants ofVariants) := by
  rw [enumDecl_eq]
  exact recognizes_block _ recognizes_closedVariants

theorem recognizes_messageDecl :
    Recognizes n messageDecl
      (IsBlock .message (IsRepeated IsField) ofFields) :=
  recognizes_block ofFields fun _ =>
    recognizes_manyUntil (by simp) recognizes_field
      avoids_isField

theorem recognizes_serviceDecl :
    Recognizes n serviceDecl
      (IsBlock .service (IsRepeated IsMethod) ofMethods) :=
  recognizes_block ofMethods fun _ =>
    recognizes_manyUntil (by simp) recognizes_method
      avoids_isMethod

end Parser

end TagWire

------------------------------------------------------------
-- Declarations
------------------------------------------------------------

namespace TagWire

namespace Parser

open Grammar

/- The first token tells the sort of a declaration. -/
theorem declaration_eq
    (s : TokenStream) :
    declaration s =
      match s.current.kind with
      | .keyword .enum => enumDecl s
      | .keyword .message => messageDecl s
      | .keyword .service => serviceDecl s
      | _ => .error ⟨.unexpected, s.current⟩ := by
  unfold declaration
  rw [bind_peek]
  split <;> simp [*, reject]

/- A block starts with the keyword of its sort. -/
theorem kind_of_isBlock
    {α β : Type}
    {k : Keyword}
    {IsBody : List Token → α → Prop}
    {build : Position → String → α → β}
    {ts : List Token}
    {b : β}
    (h : IsBlock k IsBody build ts b)
    (s : TokenStream) :
    (s.prepend ts).current.kind = .keyword k := by
  rcases h with ⟨word, _, _, _, _, _, rfl, hWord, _⟩
  exact hWord

theorem takes_declaration :
    Takes declaration IsDeclaration where
  inhabited := by
    rcases (recognizes_enumDecl (n := 0)).inhabited with
      ⟨ts, d, h⟩
    exact ⟨ts, d, isDeclaration_iff.mpr (.inl h)⟩
  inner := by
    intro ts d h
    rcases isDeclaration_iff.mp h with h | h | h
    · exact (recognizes_enumDecl (n := 0)).inner ts d h
    · exact (recognizes_messageDecl (n := 0)).inner ts d h
    · exact (recognizes_serviceDecl (n := 0)).inner ts d h
  complete := by
    intro ts d s h
    rcases isDeclaration_iff.mp h with h | h | h
    · rw [declaration_eq, kind_of_isBlock h s]
      exact (recognizes_enumDecl (n := 0)).complete ts d s h
    · rw [declaration_eq, kind_of_isBlock h s]
      exact (recognizes_messageDecl (n := 0)).complete ts d s h
    · rw [declaration_eq, kind_of_isBlock h s]
      exact (recognizes_serviceDecl (n := 0)).complete ts d s h

/- A declaration is recognized by the token it starts with. -/
theorem recognizes_declaration
    {n : Nat} :
    Recognizes n declaration IsDeclaration where
  toTakes := takes_declaration
  follows := by
    intro s hEnd hLt
    have hSame := declaration_eq s
    split at hSame
    · next hKind =>
        apply (recognizes_enumDecl.follows s hEnd hLt).mono
        · exact fun ts d h => isDeclaration_iff.mpr (.inl h)
        · intro s' hCurrent
          rw [declaration_eq, hCurrent, hKind]
    · next hKind =>
        apply (recognizes_messageDecl.follows s hEnd hLt).mono
        · exact fun ts d h =>
            isDeclaration_iff.mpr (.inr (.inl h))
        · intro s' hCurrent
          rw [declaration_eq, hCurrent, hKind]
    · next hKind =>
        apply (recognizes_serviceDecl.follows s hEnd hLt).mono
        · exact fun ts d h =>
            isDeclaration_iff.mpr (.inr (.inr h))
        · intro s' hCurrent
          rw [declaration_eq, hCurrent, hKind]
    · next hEnum hMessage hService =>
        constructor
        · intro d s' h
          rw [hSame] at h
          cases h
        · intro e h
          rw [hSame] at h
          cases h
          rcases takes_declaration.inhabited with ⟨ts, d, hWord⟩
          refine ⟨[], s.advance, hEnd.eq_prepend,
            ⟨ts, d, hWord⟩, ?_⟩
          intro s'
          rw [declaration_eq]
          split
          · next hKind => exact absurd hKind hEnum
          · next hKind => exact absurd hKind hMessage
          · next hKind => exact absurd hKind hService
          · rfl

/- No declaration starts with the end of the text. -/
theorem avoids_isDeclaration :
    Avoids IsDeclaration .endOfText := by
  intro ts d h
  cases ts with
  | nil => cases h
  | cons t us =>
      exact ⟨t, us, rfl,
        takes_declaration.inner _ d h t List.mem_cons_self⟩

end Parser

end TagWire
