import TagWire.Proofs.Schema.Declarations

/-
  Parsing does not depend on where tokens are in the text. All
  places in what it gives, or in the error, move down with the
  tokens.

  Main declarations:
    * `Schema.down` and `ParseError.down`
    * `Parser.Shifts`
    * `Parser.shifts_bind`
    * `Parser.shifts_manyUntil`
    * `Parser.shifts_declaration`
-/

------------------------------------------------------------
-- Moving Declarations Down
------------------------------------------------------------

namespace TagWire

variable {ρ : Type}

/- The same enum, and so on, some lines further down. -/
def EnumDecl.down
    (e : EnumDecl)
    (lines : Nat) :
    EnumDecl :=
  { e with position := e.position.down lines }

def Field.down
    (f : Field ρ)
    (lines : Nat) :
    Field ρ :=
  { f with position := f.position.down lines }

def Message.down
    (m : Message ρ)
    (lines : Nat) :
    Message ρ :=
  { m with
    fields := m.fields.map (·.down lines)
    position := m.position.down lines }

def Method.down
    (m : Method)
    (lines : Nat) :
    Method :=
  { m with position := m.position.down lines }

def Service.down
    (s : Service)
    (lines : Nat) :
    Service :=
  { s with
    methods := s.methods.map (·.down lines)
    position := s.position.down lines }

def Declaration.down
    (d : Declaration ρ)
    (lines : Nat) :
    Declaration ρ :=
  match d with
  | .enum e => .enum (e.down lines)
  | .message m => .message (m.down lines)
  | .service s => .service (s.down lines)

/- The same schema some lines further down. -/
def Schema.down
    (s : Schema ρ)
    (lines : Nat) :
    Schema ρ where
  enums := s.enums.map (·.down lines)
  messages := s.messages.map (·.down lines)
  services := s.services.map (·.down lines)

def ParseError.down
    (e : ParseError)
    (lines : Nat) :
    ParseError :=
  { e with found := e.found.down lines }

/- A schema moves down with its declarations. -/
theorem Schema.ofDeclarations_map_down
    (ds : List (Declaration ρ))
    (lines : Nat) :
    Schema.ofDeclarations (ds.map (·.down lines)) =
      (Schema.ofDeclarations ds).down lines := by
  unfold Schema.ofDeclarations Schema.down
  simp only [List.filterMap_map, List.map_filterMap,
    Schema.mk.injEq]
  refine ⟨?_, ?_, ?_⟩
  all_goals
    congr 1
    funext d
    cases d <;> rfl

end TagWire

------------------------------------------------------------
-- Moving Streams Down
------------------------------------------------------------

namespace TagWire

def TokenStream.down
    (s : TokenStream)
    (lines : Nat) :
    TokenStream where
  ahead := s.ahead.map (·.down lines)
  last := s.last.down lines

@[simp] theorem TokenStream.current_down
    (s : TokenStream)
    (lines : Nat) :
    (s.down lines).current = s.current.down lines := by
  unfold TokenStream.down TokenStream.current
  cases s.ahead <;> rfl

@[simp] theorem TokenStream.advance_down
    (s : TokenStream)
    (lines : Nat) :
    (s.down lines).advance = s.advance.down lines := by
  simp [TokenStream.down, TokenStream.advance]

@[simp] theorem Token.kind_down
    (t : Token)
    (lines : Nat) :
    (t.down lines).kind = t.kind := rfl

@[simp] theorem Token.text_down
    (t : Token)
    (lines : Nat) :
    (t.down lines).text = t.text := rfl

/- What a token is allowed as does not depend on its place. -/
@[simp] theorem Expectation.admits_down
    (e : Expectation)
    (t : Token)
    (lines : Nat) :
    e.admits (t.down lines) = e.admits t := by
  cases e <;> rfl

end TagWire

------------------------------------------------------------
-- Moving Parsers Down
------------------------------------------------------------

namespace TagWire

namespace Parser

variable {α β γ δ : Type}
variable {lines : Nat}

/- What a parser gives, some lines further down. -/
def outcomeDown
    (lines : Nat)
    (move : α → β) :
    Except ParseError (α × TokenStream) →
      Except ParseError (β × TokenStream)
| .ok (a, s) => .ok (move a, s.down lines)
| .error e => .error (e.down lines)

/-
  A parser gives the same as another one on the same tokens
  some lines further down, with values moved in some way.
-/
def Shifts
    (lines : Nat)
    (move : α → β)
    (p : Parser α)
    (q : Parser β) : Prop :=
  ∀ s, q (s.down lines) = outcomeDown lines move (p s)

theorem shifts_bind
    {move : α → β}
    {move' : γ → δ}
    {p : Parser α}
    {q : Parser β}
    {f : α → Parser γ}
    {g : β → Parser δ}
    (hp : Shifts lines move p q)
    (hf : ∀ a, Shifts lines move' (f a) (g (move a))) :
    Shifts lines move' (p >>= f) (q >>= g) := by
  intro s
  have hFirst := hp s
  cases hRun : p s with
  | error e =>
      rw [hRun] at hFirst
      rw [bind_of_error hRun]
      exact bind_of_error hFirst
  | ok r =>
      rw [hRun] at hFirst
      rw [bind_of_ok hRun, ← hf r.1 r.2]
      exact bind_of_ok hFirst

theorem shifts_pure
    {move : α → β}
    (a : α) :
    Shifts lines move (pure a) (pure (move a)) :=
  fun _ => rfl

theorem shifts_reject
    {move : α → β}
    (fault : ParseFault)
    (t : Token) :
    Shifts lines move (reject fault t)
      (reject fault (t.down lines)) :=
  fun _ => rfl

theorem shifts_peek :
    Shifts lines (·.down lines) peek peek := by
  intro s
  unfold peek
  rw [TokenStream.current_down]
  rfl

theorem shifts_accept
    (kind : TokenKind) :
    Shifts lines id (accept kind) (accept kind) := by
  intro s
  unfold accept
  rw [TokenStream.current_down, TokenStream.advance_down,
    Token.kind_down]
  split <;> rfl

theorem shifts_expect
    (e : Expectation) :
    Shifts lines (·.down lines) (expect e) (expect e) := by
  intro s
  unfold expect
  rw [TokenStream.current_down, TokenStream.advance_down,
    Expectation.admits_down]
  split <;> rfl

theorem shifts_ite
    {move : α → β}
    {c : Prop}
    [Decidable c]
    {p p' : Parser α}
    {q q' : Parser β}
    (hThen : Shifts lines move p q)
    (hElse : Shifts lines move p' q') :
    Shifts lines move (if c then p else p')
      (if c then q else q') := by
  split
  · exact hThen
  · exact hElse

/- Repetition shifts if what is repeated does. -/
theorem shifts_manyUntil
    {move : α → α}
    {p : Parser α}
    {hp : Progresses p}
    {close : TokenKind}
    (h : Shifts lines move p p) :
    Shifts lines (List.map move) (manyUntil p hp close)
      (manyUntil p hp close) := by
  intro s
  fun_induction manyUntil p hp close s with
  | case1 s hClose =>
      rw [manyUntil_of_close, TokenStream.advance_down]
      · rfl
      · rwa [TokenStream.current_down]
  | case2 s hOpen e hError =>
      have hMoved := h s
      rw [hError] at hMoved
      apply manyUntil_of_error _ hMoved
      rwa [TokenStream.current_down]
  | case3 s hOpen a s₁ hFirst hLt e hRest ih =>
      have hMoved := h s
      rw [hFirst] at hMoved
      rw [hRest] at ih
      rw [manyUntil_of_ok _ hMoved, ih]
      · rfl
      · rwa [TokenStream.current_down]
  | case4 s hOpen a s₁ hFirst hLt rest s₂ hRest ih =>
      have hMoved := h s
      rw [hFirst] at hMoved
      rw [hRest] at ih
      rw [manyUntil_of_ok _ hMoved, ih]
      · rfl
      · rwa [TokenStream.current_down]

end Parser

end TagWire

------------------------------------------------------------
-- The Parsers of the Grammar
------------------------------------------------------------

namespace TagWire

namespace Parser

variable {lines : Nat}

theorem shifts_name
    (e : Expectation) :
    Shifts lines id (name e) (name e) := by
  apply shifts_bind (shifts_expect e)
  intro t
  exact shifts_ite (shifts_pure _) (shifts_reject _ _)

theorem shifts_seqNumber :
    Shifts lines id seqNumber seqNumber := by
  apply shifts_bind (shifts_expect _)
  intro t
  rw [Token.text_down]
  cases seqNumber? t.text with
  | none => exact shifts_reject _ _
  | some n => exact shifts_pure n

theorem shifts_listOpening :
    Shifts lines id listOpening listOpening := by
  apply shifts_bind (shifts_expect _)
  exact fun _ => shifts_pure _

theorem shifts_mapOpening :
    Shifts lines id mapOpening mapOpening := by
  apply shifts_bind (shifts_expect _)
  intro _
  apply shifts_bind (shifts_expect _)
  intro t
  apply shifts_bind (shifts_expect _)
  intro _
  rw [Token.text_down]
  cases ScalarKind.ofName? t.text with
  | none => exact shifts_reject _ _
  | some kind => exact shifts_pure kind

/-
  A type shifts, case by case of how it is taken. The start of
  the moved type is computed from that of the type itself.
-/
theorem shifts_typeExpr :
    Shifts lines id typeExpr typeExpr := by
  intro s
  fun_induction typeExpr s
  all_goals
    rw [typeExpr_eq]
    simp [typeWord, typeRest, reject, bind_apply, pure_apply,
      Except.bind, -bind_pure_comp, outcomeDown,
      ParseError.down, shifts_expect _ _,
      shifts_listOpening _, shifts_mapOpening _, *]

theorem shifts_field :
    Shifts lines (·.down lines) field field := by
  refine shifts_bind shifts_peek fun start => ?_
  refine shifts_bind (shifts_accept _) fun optional => ?_
  refine shifts_bind (shifts_expect _) fun _ => ?_
  refine shifts_bind (shifts_expect _) fun _ => ?_
  refine shifts_bind shifts_seqNumber fun seq => ?_
  refine shifts_bind shifts_typeExpr fun type => ?_
  refine shifts_bind (shifts_name _) fun fieldName => ?_
  refine shifts_bind (shifts_expect _) fun _ => ?_
  exact shifts_pure _

theorem shifts_response :
    Shifts lines id response response := by
  refine shifts_bind (shifts_accept _) fun hasResponse => ?_
  refine shifts_ite ?_ (shifts_pure _)
  refine shifts_bind (shifts_expect _) fun _ => ?_
  refine shifts_bind (shifts_name _) fun responseName => ?_
  refine shifts_bind (shifts_expect _) fun _ => ?_
  exact shifts_pure _

theorem shifts_method :
    Shifts lines (·.down lines) method method := by
  refine shifts_bind shifts_peek fun start => ?_
  refine shifts_bind (shifts_name _) fun methodName => ?_
  refine shifts_bind (shifts_expect _) fun _ => ?_
  refine shifts_bind (shifts_name _) fun request => ?_
  refine shifts_bind (shifts_expect _) fun _ => ?_
  refine shifts_bind shifts_response fun reply => ?_
  refine shifts_bind (shifts_expect _) fun _ => ?_
  exact shifts_pure _

/- Variants shift, one by one as they are taken. -/
theorem shifts_variants :
    Shifts lines id variants variants := by
  intro s
  have hFirst := @shifts_name lines .identifier s
  fun_induction variants s with
  | case1 s hKind e hName =>
      rw [hName] at hFirst
      exact variants_of_error (by simpa using hKind) hFirst
  | case2 s hKind variant s₁ hName hComma hLt e hRest ih =>
      rw [hName] at hFirst
      rw [hRest] at ih
      rw [variants_of_ok (by simpa using hKind) hFirst, if_pos,
        TokenStream.advance_down, ih (shifts_name _ _)]
      · rfl
      · simpa using hComma
  | case3 s hKind variant s₁ hName hComma hLt rest s₂ hRest
      ih =>
      rw [hName] at hFirst
      rw [hRest] at ih
      rw [variants_of_ok (by simpa using hKind) hFirst, if_pos,
        TokenStream.advance_down, ih (shifts_name _ _)]
      · rfl
      · simpa using hComma
  | case4 s hKind variant s₁ hName hOther =>
      rw [hName] at hFirst
      rw [variants_of_ok (by simpa using hKind) hFirst, if_neg]
      · rfl
      · simpa using hOther
  | case5 s hOther =>
      rw [variants, if_neg]
      · rfl
      · simpa using hOther

theorem shifts_heading
    (k : Keyword) :
    Shifts lines (fun r => (r.1.down lines, r.2)) (heading k)
      (heading k) := by
  refine shifts_bind (shifts_expect _) fun t => ?_
  refine shifts_bind (shifts_name _) fun declared => ?_
  exact shifts_pure _

theorem shifts_enumDecl :
    Shifts lines (·.down lines) enumDecl enumDecl := by
  refine shifts_bind (shifts_heading _) fun r => ?_
  refine shifts_bind (shifts_expect _) fun _ => ?_
  refine shifts_bind shifts_variants fun names => ?_
  refine shifts_bind (shifts_expect _) fun _ => ?_
  exact shifts_pure _

theorem shifts_messageDecl :
    Shifts lines (·.down lines) messageDecl messageDecl := by
  refine shifts_bind (shifts_heading _) fun r => ?_
  refine shifts_bind (shifts_expect _) fun _ => ?_
  refine shifts_bind (shifts_manyUntil shifts_field)
    fun fields => ?_
  exact shifts_pure _

theorem shifts_serviceDecl :
    Shifts lines (·.down lines) serviceDecl serviceDecl := by
  refine shifts_bind (shifts_heading _) fun r => ?_
  refine shifts_bind (shifts_expect _) fun _ => ?_
  refine shifts_bind (shifts_manyUntil shifts_method)
    fun methods => ?_
  exact shifts_pure _

theorem shifts_declaration :
    Shifts lines (·.down lines) declaration declaration := by
  refine shifts_bind shifts_peek fun t => ?_
  rw [Token.kind_down]
  split
  · exact shifts_enumDecl
  · exact shifts_messageDecl
  · exact shifts_serviceDecl
  · exact shifts_reject _ _

end Parser

end TagWire
