import TagWire.Schema.Token
import TagWire.Text.Quoted

/-
  This file defines parsers over a stream of tokens. A stream
  never runs dry: behind its last token that token stands
  again and again. So a parser that takes two tokens of
  different kinds has moved on, which is what makes the loops
  of the grammar end.

  Key definitions include:
    * `TokenStream`
    * `Expectation`
    * `ParseError`
    * `Parser`
    * `Parser.NonGrowing`
    * `Parser.Progresses`
    * `Parser.manyUntil`

  Correctness is proven by:
    * `Parser.progresses_expect_expect`
    * `Parser.nonGrowing_manyUntil`
-/

namespace TagWire

open Text

------------------------------------------------------------
-- Streams
------------------------------------------------------------

/-
  The tokens ahead, and the token that stands when none is
  ahead.
-/
structure TokenStream where
  ahead : List Token
  last : Token
deriving DecidableEq, Repr

namespace TokenStream

/-
  The stream of some tokens. Its last token repeats; a stream
  of no tokens has the end of the text everywhere.
-/
def ofTokens
    (tokens : List Token) :
    TokenStream :=
  ⟨tokens, tokens.getLast?.getD (endToken ⟨0, 0⟩)⟩

/- The next token. -/
def current
    (s : TokenStream) :
    Token :=
  s.ahead.head?.getD s.last

/- The stream behind the next token. -/
def advance
    (s : TokenStream) :
    TokenStream :=
  { s with ahead := s.ahead.tail }

/- The number of tokens ahead. -/
def length
    (s : TokenStream) :
    Nat :=
  s.ahead.length

/- Moving on never brings tokens back. -/
theorem length_advance_le
    (s : TokenStream) :
    s.advance.length ≤ s.length := by
  simp [advance, length]

/-
  If moving on changes the next token, there was a token
  ahead, and now there is one less.
-/
theorem length_advance_lt
    {s : TokenStream}
    (h : s.advance.current ≠ s.current) :
    s.advance.length < s.length := by
  cases hAhead : s.ahead with
  | nil =>
      exact absurd (by simp [advance, current, hAhead]) h
  | cons t rest => simp [advance, length, hAhead]

end TokenStream

------------------------------------------------------------
-- Errors
------------------------------------------------------------

/- What the grammar allows at some place. -/
inductive Expectation where
| mark (m : Mark)
| keyword (k : Keyword)
| number
| identifier
| methodName
| requestType
| responseType
| type
| mapKey
deriving DecidableEq, Repr

namespace Expectation

/- The tokens that meet an expectation. -/
def admits
    (e : Expectation)
    (t : Token) :
    Bool :=
  match e with
  | mark m => t.kind == .mark m
  | keyword k => t.kind == .keyword k
  | number => t.kind == .number
  | identifier | methodName | requestType | responseType =>
      t.kind == .identifier
  | type => t.kind == .builtin || t.kind == .identifier
  | mapKey =>
      t.kind == .builtin && (ScalarKind.ofName? t.text).isSome

/- How a message names an expectation. -/
def text : Expectation → String
| mark m => quote m.char.toString
| keyword k => quote k.text
| number => "number"
| identifier => "identifier"
| methodName => "method name"
| requestType => "request type"
| responseType => "response type"
| type => "type"
| mapKey => "scalar map key type"

end Expectation

/- What is wrong with a token. -/
inductive ParseFault where
| expected (e : Expectation)
| unexpected
| invalidIdentifier
| invalidSeq
deriving DecidableEq, Repr

/- A token at which a schema stops being one. -/
structure ParseError where
  fault : ParseFault
  found : Token
deriving DecidableEq, Repr

namespace ParseError

/- How a message names a token. -/
def describe
    (t : Token) :
    String :=
  if t.kind = .endOfText then "end of file" else quote t.text

/- The description of a parse error, without its place. -/
def message : ParseError → String
| ⟨.expected e, t⟩ =>
    s!"Expected {e.text} but found {describe t}"
| ⟨.unexpected, t⟩ =>
    s!"Unexpected token {describe t}"
| ⟨.invalidIdentifier, t⟩ =>
    s!"Invalid identifier {quote t.text}"
| ⟨.invalidSeq, t⟩ =>
    s!"Invalid seq {quote t.text}, " ++
      "expected a number from 0 to 255"

end ParseError

------------------------------------------------------------
-- Parsers
------------------------------------------------------------

/- A parser gives a value and the stream behind it. -/
abbrev Parser : Type → Type :=
  StateT TokenStream (Except ParseError)

namespace Parser

variable {α β : Type}

/- Reject a token. -/
def reject
    (fault : ParseFault)
    (t : Token) :
    Parser α :=
  fun _ => .error ⟨fault, t⟩

/- The next token, which is left in place. -/
def peek : Parser Token :=
  fun s => .ok (s.current, s)

/- Take the next token if it is of the given kind. -/
def accept
    (kind : TokenKind) :
    Parser Bool :=
  fun s =>
    if s.current.kind = kind then
      .ok (true, s.advance)
    else
      .ok (false, s)

/- Take the next token, which has to meet an expectation. -/
def expect
    (e : Expectation) :
    Parser Token :=
  fun s =>
    if e.admits s.current then
      .ok (s.current, s.advance)
    else
      .error ⟨.expected e, s.current⟩

------------------------------------------------------------
-- Progress
------------------------------------------------------------

/- A parser that never brings tokens back. -/
def NonGrowing
    (p : Parser α) : Prop :=
  ∀ s a s', p s = .ok (a, s') → s'.length ≤ s.length

/- A parser that takes at least one of the tokens ahead. -/
def Progresses
    (p : Parser α) : Prop :=
  ∀ s a s', p s = .ok (a, s') → s'.length < s.length

/- A sequence succeeds only if both of its parts do. -/
theorem exists_of_bind_eq_ok
    {p : Parser α}
    {f : α → Parser β}
    {s s' : TokenStream}
    {b : β}
    (h : (p >>= f) s = .ok (b, s')) :
    ∃ a t, p s = .ok (a, t) ∧ f a t = .ok (b, s') := by
  cases hp : p s with
  | error e =>
      simp [bind, StateT.bind, hp, Except.bind] at h
  | ok r =>
      refine ⟨r.1, r.2, rfl, ?_⟩
      simpa [bind, StateT.bind, hp, Except.bind] using h

/- A sequence of parsers brings nothing back if none does. -/
theorem nonGrowing_bind
    {p : Parser α}
    {f : α → Parser β}
    (hp : NonGrowing p)
    (hf : ∀ a, NonGrowing (f a)) :
    NonGrowing (p >>= f) := by
  intro s b s' h
  obtain ⟨a, t, hFirst, hSecond⟩ := exists_of_bind_eq_ok h
  exact Nat.le_trans (hf a t b s' hSecond) (hp s a t hFirst)

/- A sequence progresses if its first part does. -/
theorem progresses_bind_left
    {p : Parser α}
    {f : α → Parser β}
    (hp : Progresses p)
    (hf : ∀ a, NonGrowing (f a)) :
    Progresses (p >>= f) := by
  intro s b s' h
  obtain ⟨a, t, hFirst, hSecond⟩ := exists_of_bind_eq_ok h
  exact Nat.lt_of_le_of_lt (hf a t b s' hSecond)
    (hp s a t hFirst)

/- A sequence progresses if its second part does. -/
theorem progresses_bind_right
    {p : Parser α}
    {f : α → Parser β}
    (hp : NonGrowing p)
    (hf : ∀ a, Progresses (f a)) :
    Progresses (p >>= f) := by
  intro s b s' h
  obtain ⟨a, t, hFirst, hSecond⟩ := exists_of_bind_eq_ok h
  exact Nat.lt_of_lt_of_le (hf a t b s' hSecond)
    (hp s a t hFirst)

/- Giving a value takes nothing. -/
theorem nonGrowing_pure
    (a : α) :
    NonGrowing (pure a : Parser α) := by
  intro s b s' h
  cases h
  exact Nat.le_refl _

/- Rejecting takes nothing. -/
theorem nonGrowing_reject
    (fault : ParseFault)
    (t : Token) :
    NonGrowing (reject fault t : Parser α) := by
  intro s b s' h
  cases h

/- Looking takes nothing. -/
theorem nonGrowing_peek :
    NonGrowing peek := by
  intro s b s' h
  cases h
  exact Nat.le_refl _

/- Taking a token brings nothing back. -/
theorem nonGrowing_accept
    (kind : TokenKind) :
    NonGrowing (accept kind) := by
  intro s b s' h
  unfold accept at h
  split at h <;> cases h
  · exact s.length_advance_le
  · exact Nat.le_refl _

/- An expected token is the next one, and is taken. -/
theorem eq_of_expect
    {e : Expectation}
    {s s' : TokenStream}
    {t : Token}
    (h : expect e s = .ok (t, s')) :
    e.admits s.current ∧ t = s.current ∧ s' = s.advance := by
  unfold expect at h
  split at h
  · next hAdmits =>
      cases h
      exact ⟨hAdmits, rfl, rfl⟩
  · cases h

/- Taking an expected token brings nothing back. -/
theorem nonGrowing_expect
    (e : Expectation) :
    NonGrowing (expect e) := by
  intro s t s' h
  obtain ⟨_, _, rfl⟩ := eq_of_expect h
  exact s.length_advance_le

/-
  Two expectations that no token meets both cannot be met by
  one repeated token, so meeting them in a row takes a token.
-/
theorem length_lt_of_expect_expect
    {a b : Expectation}
    {f : Token → Parser β}
    {s s₁ s₂ : TokenStream}
    {t : Token}
    {r : β}
    (hDisjoint : ∀ t, a.admits t → ¬ b.admits t)
    (hf : ∀ u, NonGrowing (f u))
    (hFirst : expect a s = .ok (t, s₁))
    (hRest : (expect b >>= f) s₁ = .ok (r, s₂)) :
    s₂.length < s.length := by
  obtain ⟨u, s', hSecond, hTail⟩ := exists_of_bind_eq_ok hRest
  obtain ⟨hA, _, rfl⟩ := eq_of_expect hFirst
  obtain ⟨hB, _, rfl⟩ := eq_of_expect hSecond
  have hLt : s.advance.length < s.length := by
    apply TokenStream.length_advance_lt
    intro hSame
    rw [hSame] at hB
    exact hDisjoint _ hA hB
  have hTailLe := hf u _ _ _ hTail
  have hStep := s.advance.length_advance_le
  omega

/- Meeting two such expectations in a row progresses. -/
theorem progresses_expect_expect
    {a b : Expectation}
    {f : Token → Token → Parser β}
    (hDisjoint : ∀ t, a.admits t → ¬ b.admits t)
    (hf : ∀ t u, NonGrowing (f t u)) :
    Progresses (expect a >>= fun t => expect b >>= f t) := by
  intro s r s' h
  obtain ⟨t, s₁, hFirst, hRest⟩ := exists_of_bind_eq_ok h
  exact length_lt_of_expect_expect hDisjoint (hf t)
    hFirst hRest

------------------------------------------------------------
-- Repetition
------------------------------------------------------------

/-
  Run a parser up to a token of the closing kind, which is
  taken too. The parser has to progress for this to end.
-/
def manyUntil
    (p : Parser α)
    (hp : Progresses p)
    (close : TokenKind)
    (s : TokenStream) :
    Except ParseError (List α × TokenStream) :=
  if s.current.kind = close then
    .ok ([], s.advance)
  else
    match h : p s with
    | .error e => .error e
    | .ok (a, s') =>
        have _hLt : s'.length < s.length := hp s a s' h
        match manyUntil p hp close s' with
        | .error e => .error e
        | .ok (rest, s'') => .ok (a :: rest, s'')
termination_by s.length

/- Repetition brings nothing back. -/
theorem nonGrowing_manyUntil
    (p : Parser α)
    (hp : Progresses p)
    (close : TokenKind) :
    NonGrowing (manyUntil p hp close) := by
  intro s
  fun_induction manyUntil p hp close s with
  | case1 s hClose =>
      intro _ _ h
      cases h
      exact s.length_advance_le
  | case2 =>
      intro _ _ h
      cases h
  | case3 =>
      intro _ _ h
      cases h
  | case4 s _ a s' _ hLt rest s'' hRest ih =>
      intro _ _ h
      cases h
      exact Nat.le_trans (ih rest s'' hRest) (Nat.le_of_lt hLt)

end Parser

end TagWire
