import TagWire.Proofs.Schema.Declarations

/-
  Parsing ends because every round of it takes a token. The
  parsers are written once more without any promise to end:
  each loop runs for a number of rounds, each type is nested
  to a depth, and when that is not enough there is no result.
  A round for each token, and one more, is always enough.

  Main declarations:
    * `LimitedParser`
    * `parseWithin`
    * `Parser.Simulates`
    * `Parser.simulates_typeExpr`
    * `Parser.simulates_manyUntil`
    * `Parser.simulates_declaration`
    * `parseWithin_eq`
-/

------------------------------------------------------------
-- Limited Parsers
------------------------------------------------------------

namespace TagWire

/- A parser that may have to stop before it has a result. -/
abbrev LimitedParser : Type → Type :=
  StateT TokenStream (ExceptT ParseError Option)

namespace LimitedParser

variable {α β : Type}

/- There are no rounds left. -/
def exhausted : LimitedParser α :=
  fun _ => none

/- A parser that needs no rounds. -/
def unlimited
    (p : Parser α) :
    LimitedParser α :=
  fun s => some (p s)

/- No round is needed to give a value. -/
theorem pure_apply
    (a : α)
    (s : TokenStream) :
    (pure a : LimitedParser α) s = some (.ok (a, s)) := rfl

/- A sequence stops where its first part does. -/
theorem bind_apply
    (q : LimitedParser α)
    (g : α → LimitedParser β)
    (s : TokenStream) :
    (q >>= g) s =
      match q s with
      | some (.ok r) => g r.1 r.2
      | some (.error e) => some (.error e)
      | none => none := by
  show ExceptT.bind (q s) (fun r => g r.1 r.2) = _
  rcases q s with _ | (_ | _) <;> rfl

/- Take a type that is nested to some depth. -/
def typeExpr : Nat → LimitedParser (TypeExpr String)
| 0 => exhausted
| n + 1 => do
    match ← unlimited Parser.typeWord with
    | .scalar kind => return .scalar kind
    | .named reference => return .named reference
    | .list => do
        let _ ← unlimited Parser.listOpening
        let element ← typeExpr n
        let _ ← unlimited (Parser.expect (.mark .rightBracket))
        return .list element
    | .map => do
        let key ← unlimited Parser.mapOpening
        let value ← typeExpr n
        return .map key value

/- Run a parser up to a closing token for some rounds. -/
def manyUntil
    (q : LimitedParser α)
    (close : TokenKind) :
    Nat → LimitedParser (List α)
| 0 => exhausted
| n + 1 => do
    if ← unlimited (Parser.accept close) then
      return []
    else
      let a ← q
      let rest ← manyUntil q close n
      return a :: rest

/- A round takes the closing token, or one thing more. -/
theorem manyUntil_succ
    (q : LimitedParser α)
    (close : TokenKind)
    (n : Nat)
    (s : TokenStream) :
    manyUntil q close (n + 1) s =
      if s.current.kind = close then
        some (.ok ([], s.advance))
      else
        (do
          let a ← q
          let rest ← manyUntil q close n
          return a :: rest) s := by
  rw [manyUntil, bind_apply, unlimited, Parser.accept]
  by_cases hClose : s.current.kind = close
  · simp only [if_pos hClose]
    rfl
  · simp only [if_neg hClose]
    rfl

/- Take the variants of an enum in some rounds. -/
def variants : Nat → LimitedParser (List String)
| 0 => exhausted
| n + 1 => do
    let t ← unlimited Parser.peek
    if t.kind = .identifier then
      let variant ← unlimited (Parser.name .identifier)
      if ← unlimited (Parser.accept (.mark .comma)) then
        let rest ← variants n
        return variant :: rest
      else
        return [variant]
    else
      return []

/- Take a field of a type of some depth. -/
def field
    (n : Nat) :
    LimitedParser (Field String) := do
  let start ← unlimited Parser.peek
  let optional ← unlimited (Parser.accept (.keyword .optional))
  let _ ← unlimited (Parser.expect (.keyword .seq))
  let _ ← unlimited (Parser.expect (.mark .assign))
  let seq ← unlimited Parser.seqNumber
  let type ← typeExpr n
  let fieldName ← unlimited (Parser.name .identifier)
  let _ ← unlimited (Parser.expect (.mark .semicolon))
  return ⟨fieldName, seq, optional, type, start.position⟩

/- Take the variants of an enum and its closing brace. -/
def closedVariants
    (n : Nat) :
    LimitedParser (List String) := do
  let names ← variants n
  let _ ← unlimited (Parser.expect (.mark .rightBrace))
  return names

/- Take a declaration of some sort: a heading, and a body. -/
def block
    (k : Keyword)
    (body : LimitedParser α)
    (build : Position → String → α → β) :
    LimitedParser β := do
  let (start, declared) ← unlimited (Parser.heading k)
  let _ ← unlimited (Parser.expect (.mark .leftBrace))
  let a ← body
  return build start declared a

/- Take a declaration, with so many rounds for each loop. -/
def declaration
    (n : Nat) :
    LimitedParser (Declaration String) := do
  let t ← unlimited Parser.peek
  match t.kind with
  | .keyword .enum =>
      block .enum (closedVariants n) Parser.ofVariants
  | .keyword .message =>
      block .message (manyUntil (field n) (.mark .rightBrace) n)
        Parser.ofFields
  | .keyword .service =>
      block .service
        (manyUntil (unlimited Parser.method)
          (.mark .rightBrace) n)
        Parser.ofMethods
  | _ => unlimited (Parser.reject .unexpected t)

end LimitedParser

/- The schema that some tokens declare, in enough rounds. -/
def parseWithin
    (rounds : Nat)
    (tokens : List Token) :
    Option (Except ParseError ParsedSchema) :=
  let found :=
    LimitedParser.manyUntil (LimitedParser.declaration rounds)
      .endOfText rounds (TokenStream.ofTokens tokens)
  found.run.map (Except.map fun r => Schema.ofDeclarations r.1)

end TagWire

------------------------------------------------------------
-- Simulation
------------------------------------------------------------

namespace TagWire

/- One stream is what another one is further on. -/
structure TokenStream.Behind
    (s' s : TokenStream) : Prop where
  ahead : s'.ahead <:+ s.ahead
  last : s'.last = s.last

namespace TokenStream

variable {s s' s'' : TokenStream}

theorem Behind.refl
    (s : TokenStream) :
    s.Behind s :=
  ⟨List.suffix_rfl, rfl⟩

theorem Behind.trans
    (h : s''.Behind s')
    (h' : s'.Behind s) :
    s''.Behind s :=
  ⟨h.ahead.trans h'.ahead, h.last.trans h'.last⟩

theorem behind_advance
    (s : TokenStream) :
    s.advance.Behind s :=
  ⟨List.tail_suffix _, rfl⟩

theorem Behind.length_le
    (h : s'.Behind s) :
    s'.length ≤ s.length :=
  h.ahead.length_le

end TokenStream

namespace Parser

variable {α β : Type}

/- A parser takes nothing but tokens ahead, from the front. -/
def MovesOn
    (p : Parser α) : Prop :=
  ∀ s a s', p s = .ok (a, s') → s'.Behind s

theorem movesOn_pure
    (a : α) :
    MovesOn (pure a : Parser α) := by
  intro s b s' h
  cases h
  exact .refl s

theorem movesOn_reject
    (fault : ParseFault)
    (t : Token) :
    MovesOn (reject fault t : Parser α) := by
  intro s b s' h
  cases h

theorem movesOn_peek :
    MovesOn peek := by
  intro s t s' h
  cases h
  exact .refl s

theorem movesOn_accept
    (kind : TokenKind) :
    MovesOn (accept kind) := by
  intro s taken s' h
  unfold accept at h
  split at h <;> cases h
  · exact s.behind_advance
  · exact .refl s

theorem movesOn_expect
    (e : Expectation) :
    MovesOn (expect e) := by
  intro s t s' h
  rcases eq_of_expect h with ⟨_, _, rfl⟩
  exact s.behind_advance

theorem movesOn_bind
    {p : Parser α}
    {f : α → Parser β}
    (hp : MovesOn p)
    (hf : ∀ a, MovesOn (f a)) :
    MovesOn (p >>= f) := by
  intro s b s' h
  rcases exists_of_bind_eq_ok h with ⟨a, t, hFirst, hSecond⟩
  exact (hf a t b s' hSecond).trans (hp s a t hFirst)

theorem movesOn_name
    (e : Expectation) :
    MovesOn (name e) := by
  apply movesOn_bind (movesOn_expect e)
  intro t
  split
  · exact movesOn_pure _
  · exact movesOn_reject _ _

theorem movesOn_seqNumber :
    MovesOn seqNumber := by
  apply movesOn_bind (movesOn_expect .number)
  intro t
  split
  · exact movesOn_pure _
  · exact movesOn_reject _ _

theorem movesOn_mapOpening :
    MovesOn mapOpening := by
  apply movesOn_bind (movesOn_expect _)
  intro _
  apply movesOn_bind (movesOn_expect _)
  intro t
  apply movesOn_bind (movesOn_expect _)
  intro _
  split
  · exact movesOn_pure _
  · exact movesOn_reject _ _

theorem movesOn_response :
    MovesOn response := by
  apply movesOn_bind (movesOn_accept _)
  intro hasResponse
  split
  · apply movesOn_bind (movesOn_expect _)
    intro _
    apply movesOn_bind (movesOn_name _)
    intro _
    apply movesOn_bind (movesOn_expect _)
    intro _
    exact movesOn_pure _
  · exact movesOn_pure _

theorem movesOn_method :
    MovesOn method := by
  apply movesOn_bind movesOn_peek
  intro start
  apply movesOn_bind (movesOn_name _)
  intro methodName
  apply movesOn_bind (movesOn_expect _)
  intro _
  apply movesOn_bind (movesOn_name _)
  intro request
  apply movesOn_bind (movesOn_expect _)
  intro _
  apply movesOn_bind movesOn_response
  intro reply
  apply movesOn_bind (movesOn_expect _)
  intro _
  exact movesOn_pure _

theorem movesOn_heading
    (k : Keyword) :
    MovesOn (heading k) := by
  apply movesOn_bind (movesOn_expect _)
  intro t
  apply movesOn_bind (movesOn_name _)
  intro declared
  exact movesOn_pure _

theorem movesOn_variants :
    MovesOn variants := by
  intro s
  fun_induction variants s
  all_goals
    intro _ _ h
    cases h
  case case3 s _ variant s₁ hName _ _ rest s₂ hRest ih =>
    have hTaken := movesOn_name _ _ _ _ hName
    exact (ih rest s₂ hRest).trans
      (s₁.behind_advance.trans hTaken)
  case case4 s _ variant s₁ hName _ =>
    exact movesOn_name _ _ _ _ hName
  case case5 s _ => exact .refl s

theorem movesOn_typeExpr :
    MovesOn typeExpr := by
  intro s
  fun_induction typeExpr s
  all_goals
    intro _ _ h
    cases h
  case case2 s t s₁ hType _ _ =>
    exact movesOn_expect _ _ _ _ hType
  case case7 s _ s₁ hType _ _ _ s₂ hOpen _ element s₃ hElement _
      s₄ hClose ih =>
    have hTaken := movesOn_expect _ _ _ _ hType
    have hOpened := movesOn_bind (movesOn_expect _)
      (fun _ => movesOn_pure ()) _ _ _ hOpen
    have hClosed := movesOn_expect _ _ _ _ hClose
    exact hClosed.trans
      ((ih element s₃ hElement).trans (hOpened.trans hTaken))
  case case10 s _ s₁ hType _ _ _ key s₂ hOpen _ value s₃ hValue
      ih =>
    have hTaken := movesOn_expect _ _ _ _ hType
    have hOpened := movesOn_mapOpening _ _ _ hOpen
    exact (ih value s₃ hValue).trans (hOpened.trans hTaken)
  case case11 s t s₁ hType _ _ _ _ _ =>
    exact movesOn_expect _ _ _ _ hType

/-
  On streams of less than some number of tokens, a limited
  parser has the result of an unlimited one, and that takes
  nothing but tokens ahead.
-/
def Simulates
    (n : Nat)
    (q : LimitedParser α)
    (p : Parser α) : Prop :=
  ∀ s : TokenStream, s.length < n →
    q s = some (p s) ∧
      ∀ a s', p s = .ok (a, s') → s'.Behind s

variable {n : Nat}

theorem simulates_unlimited
    {p : Parser α}
    (h : MovesOn p) :
    Simulates n (LimitedParser.unlimited p) p :=
  fun s _ => ⟨rfl, h s⟩

theorem simulates_pure
    (a : α) :
    Simulates n (pure a) (pure a) := by
  intro s _
  refine ⟨rfl, ?_⟩
  intro b s' h
  cases h
  exact .refl s

/- Two steps are simulated when each of them is. -/
theorem Simulates.bind
    {q : LimitedParser α}
    {p : Parser α}
    {g : α → LimitedParser β}
    {f : α → Parser β}
    (hFirst : Simulates n q p)
    (hSecond : ∀ a, Simulates n (g a) (f a)) :
    Simulates n (q >>= g) (p >>= f) := by
  intro s hBound
  rcases hFirst s hBound with ⟨hRun, hBehind⟩
  rw [LimitedParser.bind_apply, hRun]
  cases hp : p s with
  | error e =>
      rw [bind_of_error hp]
      refine ⟨rfl, ?_⟩
      intro b s' h
      cases h
  | ok r =>
      rw [bind_of_ok hp]
      have hMoved := hBehind r.1 r.2 hp
      have hBound' :=
        Nat.lt_of_le_of_lt hMoved.length_le hBound
      rcases hSecond r.1 r.2 hBound' with ⟨hRest, hBehind'⟩
      exact
        ⟨hRest, fun b s' h => (hBehind' b s' h).trans hMoved⟩

------------------------------------------------------------
-- Loops
------------------------------------------------------------

/- A depth for each token is enough for any type. -/
theorem simulates_typeExpr :
    Simulates n (LimitedParser.typeExpr n) typeExpr := by
  intro s hBound
  refine ⟨?_, movesOn_typeExpr s⟩
  fun_induction typeExpr s generalizing n
  all_goals
    cases n with
    | zero => exact absurd hBound (Nat.not_lt_zero _)
    | succ n => ?_
  all_goals
    simp (disch := omega) [LimitedParser.typeExpr,
      LimitedParser.unlimited, LimitedParser.bind_apply,
      LimitedParser.pure_apply, typeWord, bind_apply,
      pure_apply, reject, Except.bind, -bind_pure_comp, *]

/- A round for each token is enough for any variants. -/
theorem simulates_variants :
    Simulates n (LimitedParser.variants n) variants := by
  intro s hBound
  refine ⟨?_, movesOn_variants s⟩
  fun_induction variants s generalizing n
  all_goals
    cases n with
    | zero => exact absurd hBound (Nat.not_lt_zero _)
    | succ n => ?_
  all_goals
    simp (disch := omega) [LimitedParser.variants,
      LimitedParser.unlimited, LimitedParser.bind_apply,
      LimitedParser.pure_apply, peek, accept, -bind_pure_comp,
      *]

/- A round for each token is enough for any repetition. -/
theorem simulates_manyUntil
    {q : LimitedParser α}
    {p : Parser α}
    (hp : Progresses p)
    (close : TokenKind)
    (h : Simulates n q p) :
    Simulates n (LimitedParser.manyUntil q close n)
      (manyUntil p hp close) := by
  have hRounds :
      ∀ (rounds : Nat) (s : TokenStream),
        s.length < n → s.length < rounds →
          LimitedParser.manyUntil q close rounds s =
              some (manyUntil p hp close s) ∧
            ∀ as s',
              manyUntil p hp close s = .ok (as, s') →
                s'.Behind s := by
    intro rounds
    induction rounds with
    | zero =>
        exact fun s _ hEnough =>
          absurd hEnough (Nat.not_lt_zero _)
    | succ rounds ih =>
        intro s hBound hEnough
        rcases h s hBound with ⟨hRun, hBehind⟩
        rw [LimitedParser.manyUntil_succ]
        by_cases hClose : s.current.kind = close
        · rw [if_pos hClose, manyUntil_of_close hClose]
          refine ⟨rfl, ?_⟩
          intro as s' hDone
          cases hDone
          exact s.behind_advance
        · rw [if_neg hClose, LimitedParser.bind_apply, hRun]
          cases hFirst : p s with
          | error e =>
              rw [manyUntil_of_error hClose hFirst]
              refine ⟨rfl, ?_⟩
              intro as s' hDone
              cases hDone
          | ok r =>
              rcases r with ⟨a, s₁⟩
              have hLt := hp s a s₁ hFirst
              rcases ih s₁ (by omega) (by omega) with
                ⟨hRest, hBehind₁⟩
              rw [manyUntil_of_ok hClose hFirst]
              simp only [LimitedParser.bind_apply, hRest]
              cases hLast : manyUntil p hp close s₁ with
              | error e =>
                  refine ⟨rfl, ?_⟩
                  intro as s' hDone
                  cases hDone
              | ok r₁ =>
                  refine ⟨rfl, ?_⟩
                  intro as s' hDone
                  cases hDone
                  exact (hBehind₁ r₁.1 r₁.2 hLast).trans
                    (hBehind a s₁ hFirst)
  exact fun s hBound => hRounds n s hBound hBound

------------------------------------------------------------
-- Declarations
------------------------------------------------------------

theorem simulates_field :
    Simulates n (LimitedParser.field n) field := by
  apply (simulates_unlimited movesOn_peek).bind
  intro start
  apply (simulates_unlimited (movesOn_accept _)).bind
  intro optional
  apply (simulates_unlimited (movesOn_expect _)).bind
  intro _
  apply (simulates_unlimited (movesOn_expect _)).bind
  intro _
  apply (simulates_unlimited movesOn_seqNumber).bind
  intro seq
  apply simulates_typeExpr.bind
  intro type
  apply (simulates_unlimited (movesOn_name _)).bind
  intro fieldName
  apply (simulates_unlimited (movesOn_expect _)).bind
  intro _
  exact simulates_pure _

theorem simulates_closedVariants :
    Simulates n (LimitedParser.closedVariants n)
      closedVariants := by
  apply simulates_variants.bind
  intro names
  apply (simulates_unlimited (movesOn_expect _)).bind
  intro _
  exact simulates_pure _

theorem simulates_block
    {k : Keyword}
    {q : LimitedParser α}
    {body : Parser α}
    {build : Position → String → α → β}
    (h : Simulates n q body) :
    Simulates n (LimitedParser.block k q build)
      (block k body build) := by
  apply (simulates_unlimited (movesOn_heading k)).bind
  intro r
  apply (simulates_unlimited (movesOn_expect _)).bind
  intro _
  apply h.bind
  intro a
  exact simulates_pure _

theorem simulates_declaration :
    Simulates n (LimitedParser.declaration n)
      declaration := by
  apply (simulates_unlimited movesOn_peek).bind
  intro t
  generalize t.kind = kind
  cases kind with
  | keyword k =>
      cases k with
      | enum =>
          rw [enumDecl_eq]
          exact simulates_block simulates_closedVariants
      | message =>
          exact simulates_block
            (simulates_manyUntil progresses_field _
              simulates_field)
      | service =>
          exact simulates_block
            (simulates_manyUntil progresses_method _
              (simulates_unlimited movesOn_method))
      | _ => exact simulates_unlimited (movesOn_reject _ _)
  | _ => exact simulates_unlimited (movesOn_reject _ _)

theorem movesOn_declaration :
    MovesOn declaration := by
  intro s
  exact (simulates_declaration s (Nat.lt_succ_self _)).2

end Parser

/-
  Parsing ends: more rounds than there are tokens, for each
  loop and each nested type, are never used up.
-/
theorem parseWithin_eq
    {rounds : Nat}
    {tokens : List Token}
    (h : tokens.length < rounds) :
    parseWithin rounds tokens = some (parse tokens) := by
  have hRun :=
    (Parser.simulates_manyUntil Parser.progresses_declaration
      .endOfText Parser.simulates_declaration
      (TokenStream.ofTokens tokens) h).1
  rw [parseWithin, hRun]
  unfold parse
  cases Parser.declaration.manyUntil
    Parser.progresses_declaration .endOfText
    (TokenStream.ofTokens tokens) <;> rfl

end TagWire
