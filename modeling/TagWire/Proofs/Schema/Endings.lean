import TagWire.Proofs.Schema.Concatenation
import TagWire.Proofs.Schema.Rounds

/-
  Tokens of any kind in any order, as no text need have them.
  Parsing ends on all of them. It goes by the first end of a
  text among them, whatever is behind that, and where there is
  none it fails, though the last token stands again and again.

  Main declarations:
    * `upToEnd`
    * `parse_append_of_endsOnce`
    * `TokenStream.Endless`
    * `exists_parse_eq_error_of_endless`
    * `parse_of_any_tokens`
-/

------------------------------------------------------------
-- Tokens Behind the End
------------------------------------------------------------

namespace TagWire

open Grammar

/- The tokens up to the first end of the text, and that end. -/
def upToEnd : List Token → List Token
| [] => []
| t :: rest =>
    if t.kind = .endOfText then [t] else t :: upToEnd rest

/- Either there is no end, or what is behind it is cut off. -/
theorem upToEnd_cases
    (tokens : List Token) :
    ((∀ t ∈ tokens, t.kind ≠ .endOfText) ∧
      upToEnd tokens = tokens) ∨
    (EndsOnce (upToEnd tokens) ∧
      ∃ back, tokens = upToEnd tokens ++ back) := by
  induction tokens with
  | nil => exact Or.inl ⟨by simp, rfl⟩
  | cons t rest ih =>
      rw [upToEnd]
      split
      · next hEnd =>
          refine Or.inr ⟨⟨[], t, rfl, hEnd, ?_⟩, rest, rfl⟩
          intro u hu
          cases hu
      · next hEnd =>
          rcases ih with
            ⟨hNone, hSame⟩ |
            ⟨⟨inner, ending, hSplit, hEnding, hInner⟩,
              back, hBack⟩
          · rw [hSame]
            exact Or.inl
              ⟨List.forall_mem_cons.mpr ⟨hEnd, hNone⟩, rfl⟩
          · refine Or.inr
              ⟨⟨t :: inner, ending, ?_, hEnding, ?_⟩, back, ?_⟩
            · rw [hSplit, List.cons_append]
            · exact List.forall_mem_cons.mpr ⟨hEnd, hInner⟩
            · rw [List.cons_append, ← hBack]

/- The end of the text is a schema without declarations. -/
theorem parse_cons_of_end
    {t : Token}
    (h : t.kind = .endOfText)
    (back : List Token) :
    parse (t :: back) = .ok Schema.empty := by
  have hClosed :
      Parser.declarations (TokenStream.ofTokens (t :: back)) =
        .ok ([], (TokenStream.ofTokens (t :: back)).advance) :=
    Parser.manyUntil_of_close h
  rw [parse_eq, hClosed]
  rfl

/- Nothing behind the end of the text is looked at. -/
theorem parse_append_of_endsOnce
    {tokens : List Token}
    (h : EndsOnce tokens)
    (back : List Token) :
    parse (tokens ++ back) = parse tokens := by
  cases hParse : parse tokens with
  | ok s =>
      have hDerived := isSchema_of_parse_eq_ok h hParse
      rcases h with ⟨inner, ending, rfl, hEnding, _⟩
      rcases hDerived.exists_isRepeated with
        ⟨ds, hDeclarations, _⟩
      rw [List.append_assoc, ← hParse,
        parse_append hDeclarations (by simp),
        parse_append hDeclarations (by simp),
        List.singleton_append, parse_cons_of_end hEnding,
        parse_cons_of_end hEnding]
  | error e =>
      rcases Parser.manyUntil_prompt
          Parser.recognizes_declaration
          Parser.avoids_isDeclaration h.hasEnd
          (Nat.lt_succ_self _) (parse_eq_error_iff.mp hParse)
        with ⟨ts, after, hStream, _, hFails⟩
      have hTokens : tokens = ts ++ [e.found] ++ after.ahead :=
        TokenStream.eq_append_of_ofTokens_eq hStream
      rcases TokenStream.exists_ofTokens_append
          (ts ++ [e.found]) (after.ahead ++ back) with
        ⟨last, hStream'⟩
      rw [hTokens, List.append_assoc, parse_eq_error_iff,
        hStream']
      exact hFails _

/- Parsing some tokens is parsing them up to the end. -/
theorem parse_upToEnd
    (tokens : List Token) :
    parse (upToEnd tokens) = parse tokens := by
  rcases upToEnd_cases tokens with
    ⟨_, hSame⟩ | ⟨hEnd, back, hBack⟩
  · rw [hSame]
  · rw [← parse_append_of_endsOnce hEnd back, ← hBack]

end TagWire

------------------------------------------------------------
-- Tokens without an End
------------------------------------------------------------

namespace TagWire

namespace TokenStream

/- The end of the text never comes. -/
structure Endless
    (s : TokenStream) : Prop where
  ahead : ∀ t ∈ s.ahead, t.kind ≠ .endOfText
  last : s.last.kind ≠ .endOfText

variable {s s' : TokenStream}

theorem Endless.of_behind
    (h : s.Endless)
    (hBehind : s'.Behind s) :
    s'.Endless where
  ahead := fun t ht => h.ahead t (hBehind.ahead.subset ht)
  last := hBehind.last ▸ h.last

theorem Endless.current
    (h : s.Endless) :
    s.current.kind ≠ .endOfText := by
  cases hAhead : s.ahead with
  | nil =>
      rw [TokenStream.current, hAhead]
      exact h.last
  | cons t rest =>
      rw [TokenStream.current, hAhead]
      exact h.ahead t (hAhead ▸ List.mem_cons_self)

/- Tokens that are there, and no end among them. -/
theorem endless_ofTokens
    {tokens : List Token}
    (hNonempty : tokens ≠ [])
    (h : ∀ t ∈ tokens, t.kind ≠ .endOfText) :
    (ofTokens tokens).Endless where
  ahead := h
  last := by
    rw [ofTokens, List.getLast?_eq_some_getLast hNonempty]
    exact h _ (List.getLast_mem hNonempty)

end TokenStream

namespace Parser

variable {α : Type}

/-
  Repetition up to the end of the text fails where the end
  never comes: each round leaves a stream without an end.
-/
theorem exists_manyUntil_eq_error
    {p : Parser α}
    (hp : Progresses p)
    (hMoves : MovesOn p)
    {s : TokenStream}
    (h : s.Endless) :
    ∃ e, manyUntil p hp .endOfText s = .error e := by
  fun_induction manyUntil p hp .endOfText s with
  | case1 s hClose => exact absurd hClose h.current
  | case2 s hOpen e hFirst => exact ⟨e, rfl⟩
  | case3 s hOpen a s₁ hFirst hLt e hRest ih => exact ⟨e, rfl⟩
  | case4 s hOpen a s₁ hFirst hLt rest s₂ hRest ih =>
      rcases ih (h.of_behind (hMoves s a s₁ hFirst)) with
        ⟨e, hError⟩
      rw [hRest] at hError
      cases hError

end Parser

theorem exists_parse_eq_error_of_endless
    {tokens : List Token}
    (hNonempty : tokens ≠ [])
    (h : ∀ t ∈ tokens, t.kind ≠ .endOfText) :
    ∃ e, parse tokens = .error e := by
  rcases Parser.exists_manyUntil_eq_error
      Parser.progresses_declaration Parser.movesOn_declaration
      (TokenStream.endless_ofTokens hNonempty h) with
    ⟨e, hError⟩
  exact ⟨e, parse_eq_error_iff.mpr hError⟩

/-
  Of any tokens whatsoever: parsing ends within a round for
  each of them and one more. Tokens that are the same up to
  the first end of a text are parsed alike. Tokens without an
  end are rejected, if there are any.
-/
theorem parse_of_any_tokens
    (tokens : List Token) :
    (∀ rounds,
      tokens.length < rounds →
        parseWithin rounds tokens = some (parse tokens)) ∧
    (∀ tokens',
      upToEnd tokens' = upToEnd tokens →
        parse tokens' = parse tokens) ∧
    (tokens ≠ [] →
      (∀ t ∈ tokens, t.kind ≠ .endOfText) →
        ∃ e, parse tokens = .error e) := by
  refine ⟨fun rounds => parseWithin_eq, ?_,
    exists_parse_eq_error_of_endless⟩
  intro tokens' hSame
  rw [← parse_upToEnd, hSame, parse_upToEnd]

/-
  The beginning of a message. The bracket that closes its inner
  list is the last token, so it closes the outer one as well.
-/
def unfinishedTokens : List Token :=
  [
    ⟨.keyword .message, "message", ⟨1, 1⟩⟩,
    ⟨.identifier, "M", ⟨1, 9⟩⟩,
    markToken .leftBrace ⟨1, 11⟩,
    ⟨.keyword .seq, "seq", ⟨1, 13⟩⟩,
    markToken .assign ⟨1, 16⟩,
    ⟨.number, "1", ⟨1, 17⟩⟩,
    ⟨.builtin, "list", ⟨1, 19⟩⟩,
    markToken .leftBracket ⟨1, 23⟩,
    ⟨.builtin, "list", ⟨1, 24⟩⟩,
    markToken .leftBracket ⟨1, 28⟩,
    ⟨.builtin, "string", ⟨1, 29⟩⟩,
    markToken .rightBracket ⟨1, 35⟩
  ]

/- The type is taken, and then no name of the field is found. -/
theorem parse_of_any_tokens_unfinished :
    unfinishedTokens ≠ [] ∧
    (∀ t ∈ unfinishedTokens, t.kind ≠ .endOfText) ∧
    parseWithin 13 unfinishedTokens =
      some (parse unfinishedTokens) ∧
    parse
        (unfinishedTokens ++
          endToken ⟨1, 36⟩ :: unfinishedTokens) =
      parse (unfinishedTokens ++ [endToken ⟨1, 36⟩]) ∧
    ∃ e, parse unfinishedTokens = .error e := by
  have hNonempty : unfinishedTokens ≠ [] := by decide
  have hEndless :
      ∀ t ∈ unfinishedTokens, t.kind ≠ .endOfText := by
    decide
  rcases parse_of_any_tokens unfinishedTokens with
    ⟨hRounds, _, hError⟩
  rcases parse_of_any_tokens
      (unfinishedTokens ++ [endToken ⟨1, 36⟩]) with
    ⟨_, hSame, _⟩
  exact
    ⟨hNonempty, hEndless, hRounds 13 (by decide),
      hSame _ rfl, hError hNonempty hEndless⟩

end TagWire
