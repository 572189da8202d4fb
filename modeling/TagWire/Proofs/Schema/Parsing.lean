import TagWire.Proofs.Schema.Declarations

/-
  What parsing some tokens gives: the schema that the grammar
  derives from them, or an error at the first token with which
  they start no schema.

  Main declarations:
    * `EndsOnce`
    * `parse_eq_ok_iff_isSchema`
    * `parse_error_earliest`
-/

------------------------------------------------------------
-- Parsing Tokens
------------------------------------------------------------

namespace TagWire

open Grammar

/- The end of the text is the last token, and no other one. -/
def EndsOnce
    (tokens : List Token) : Prop :=
  ∃ inner ending,
    tokens = inner ++ [ending] ∧ ending.kind = .endOfText ∧
      ∀ t ∈ inner, t.kind ≠ .endOfText

/- Nothing is behind a token that ends the text. -/
theorem EndsOnce.eq_nil
    {ts us : List Token}
    {t : Token}
    (h : EndsOnce (ts ++ t :: us))
    (ht : t.kind = .endOfText) :
    us = [] := by
  rcases h with ⟨inner, ending, hSplit, _, hInner⟩
  rcases List.eq_nil_or_concat us with hNil | ⟨vs, u, rfl⟩
  · exact hNil
  · have hConcat :
        (ts ++ t :: vs) ++ [u] = inner ++ [ending] := by
      simpa using hSplit
    rcases List.append_inj' hConcat rfl with ⟨rfl, _⟩
    exact absurd ht (hInner t (by simp))

/- The stream of tokens with an end has it ahead. -/
theorem EndsOnce.hasEnd
    {tokens : List Token}
    (h : EndsOnce tokens) :
    (TokenStream.ofTokens tokens).HasEnd := by
  rcases h with ⟨inner, ending, rfl, hEnding, _⟩
  exact ⟨ending, by simp [TokenStream.ofTokens], hEnding⟩

/- The tokens of a schema end with the end of the text. -/
theorem Grammar.IsSchema.endsOnce
    {tokens : List Token}
    {s : ParsedSchema}
    (h : IsSchema tokens s) :
    EndsOnce tokens := by
  rcases h with ⟨hDeclarations, hEnding⟩
  exact ⟨_, _, rfl, hEnding,
    hDeclarations.forall_mem Parser.takes_declaration.inner⟩

/- Take declarations up to the end of the text. -/
def Parser.declarations :
    Parser (List (Declaration String)) :=
  declaration.manyUntil progresses_declaration .endOfText

theorem Parser.declarations_prepend
    {ts : List Token}
    {ds : List (Declaration String)}
    (h : IsRepeated IsDeclaration ts ds)
    (s : TokenStream) :
    declarations (s.prepend ts) =
      (declarations s).map (fun r => (ds ++ r.1, r.2)) :=
  manyUntil_prepend takes_declaration avoids_isDeclaration h s

theorem parse_eq
    (tokens : List Token) :
    parse tokens =
      (Parser.declarations (TokenStream.ofTokens tokens)).map
        (fun r => Schema.ofDeclarations r.1) := by
  unfold parse Parser.declarations
  cases Parser.declaration.manyUntil
    Parser.progresses_declaration .endOfText
    (TokenStream.ofTokens tokens) <;> rfl

theorem parse_eq_ok_iff
    {tokens : List Token}
    {s : ParsedSchema} :
    parse tokens = .ok s ↔
      ∃ ds rest,
        Parser.declarations (TokenStream.ofTokens tokens) =
          .ok (ds, rest) ∧
        s = Schema.ofDeclarations ds := by
  rw [parse_eq]
  cases Parser.declarations (TokenStream.ofTokens tokens) <;>
    simp [Except.map, Prod.ext_iff, eq_comm]

theorem parse_eq_error_iff
    {tokens : List Token}
    {e : ParseError} :
    parse tokens = .error e ↔
      Parser.declarations (TokenStream.ofTokens tokens) =
        .error e := by
  rw [parse_eq]
  cases Parser.declarations (TokenStream.ofTokens tokens) <;>
    simp [Except.map]

/- The stream of some tokens starts with the first ones. -/
theorem TokenStream.exists_ofTokens_append
    (ts us : List Token) :
    ∃ last,
      TokenStream.ofTokens (ts ++ us) =
        TokenStream.prepend ts ⟨us, last⟩ :=
  ⟨_, rfl⟩

/- What is in front of such a stream is in its tokens. -/
theorem TokenStream.eq_append_of_ofTokens_eq
    {tokens ts : List Token}
    {rest : TokenStream}
    (h : TokenStream.ofTokens tokens = rest.prepend ts) :
    tokens = ts ++ rest.ahead :=
  congrArg TokenStream.ahead h

/- A schema that the grammar derives is parsed. -/
theorem Grammar.IsSchema.parse_eq_ok
    {tokens : List Token}
    {s : ParsedSchema}
    (h : IsSchema tokens s) :
    parse tokens = .ok s := by
  cases h with
  | @intro ts ds ending hDeclarations hEnding =>
      rcases TokenStream.exists_ofTokens_append ts [ending] with
        ⟨last, hStream⟩
      have hClosed :
          Parser.declarations ⟨[ending], last⟩ =
            .ok ([], ⟨[], last⟩) :=
        Parser.manyUntil_of_close hEnding
      rw [parse_eq, hStream,
        Parser.declarations_prepend hDeclarations, hClosed]
      simp [Except.map]

/- A schema that is parsed is derived by the grammar. -/
theorem isSchema_of_parse_eq_ok
    {tokens : List Token}
    {s : ParsedSchema}
    (hEnd : EndsOnce tokens)
    (h : parse tokens = .ok s) :
    IsSchema tokens s := by
  rcases parse_eq_ok_iff.mp h with ⟨ds, rest, hRun, rfl⟩
  rcases Parser.manyUntil_sound Parser.recognizes_declaration
      hEnd.hasEnd (Nat.lt_succ_self _) hRun with
    ⟨ts, ending, hDeclarations, hEnding, hStream⟩
  have hTokens : tokens = ts ++ ending :: rest.ahead := by
    simpa using TokenStream.eq_append_of_ofTokens_eq hStream
  have hNil := (hTokens ▸ hEnd).eq_nil hEnding
  rw [hTokens, hNil]
  exact .intro hDeclarations hEnding

/-
  Parsing accepts exactly the tokens that the grammar derives
  a schema from, and gives that schema.
-/
theorem parse_eq_ok_iff_isSchema
    {tokens : List Token}
    {s : ParsedSchema}
    (hEnd : EndsOnce tokens) :
    parse tokens = .ok s ↔ IsSchema tokens s := by
  constructor
  · exact isSchema_of_parse_eq_ok hEnd
  · exact IsSchema.parse_eq_ok

/-
  The tokens of an enum with a comma behind its last variant,
  and of a message whose field has a nested type. The text of
  the sequence number is left open.
-/
def shapeTokens
    (number : String) :
    List Token :=
  [
    ⟨.keyword .enum, "enum", ⟨1, 1⟩⟩,
    ⟨.identifier, "color", ⟨1, 6⟩⟩,
    markToken .leftBrace ⟨1, 12⟩,
    ⟨.identifier, "red", ⟨1, 14⟩⟩,
    markToken .comma ⟨1, 17⟩,
    markToken .rightBrace ⟨1, 19⟩,
    ⟨.keyword .message, "message", ⟨2, 1⟩⟩,
    ⟨.identifier, "shape", ⟨2, 9⟩⟩,
    markToken .leftBrace ⟨2, 15⟩,
    ⟨.keyword .optional, "optional", ⟨3, 3⟩⟩,
    ⟨.keyword .seq, "seq", ⟨3, 12⟩⟩,
    markToken .assign ⟨3, 16⟩,
    ⟨.number, number, ⟨3, 18⟩⟩,
    ⟨.builtin, "map", ⟨3, 23⟩⟩,
    markToken .leftBracket ⟨3, 26⟩,
    ⟨.builtin, "string", ⟨3, 27⟩⟩,
    markToken .rightBracket ⟨3, 33⟩,
    ⟨.builtin, "list", ⟨3, 34⟩⟩,
    markToken .leftBracket ⟨3, 38⟩,
    ⟨.identifier, "color", ⟨3, 39⟩⟩,
    markToken .rightBracket ⟨3, 44⟩,
    ⟨.identifier, "fill", ⟨3, 46⟩⟩,
    markToken .semicolon ⟨3, 50⟩,
    markToken .rightBrace ⟨4, 1⟩,
    endToken ⟨5, 1⟩
  ]

/- What these tokens declare, with that sequence number. -/
def shapeSchema
    (seq : UInt8) :
    ParsedSchema where
  enums := [⟨"Color", ["Red"], ⟨1, 1⟩⟩]
  messages :=
    [
      ⟨"Shape",
        [
          ⟨"fill", seq, true,
            .map .string (.list (.named "color")), ⟨3, 3⟩⟩
        ],
        ⟨2, 1⟩⟩
    ]
  services := []

theorem endsOnce_shapeTokens
    (number : String) :
    EndsOnce (shapeTokens number) :=
  ⟨(shapeTokens number).dropLast, endToken ⟨5, 1⟩, rfl, rfl,
    by simp [shapeTokens, markToken]⟩

/- The largest sequence number, with a sign and a zero. -/
theorem parse_eq_ok_iff_isSchema_shape :
    EndsOnce (shapeTokens "+0255") ∧
      parse (shapeTokens "+0255") = .ok (shapeSchema 255) ∧
        IsSchema (shapeTokens "+0255") (shapeSchema 255) := by
  have hEnd := endsOnce_shapeTokens "+0255"
  have hParse :
      parse (shapeTokens "+0255") = .ok (shapeSchema 255) := by
    decide +kernel
  exact ⟨hEnd, hParse, (parse_eq_ok_iff_isSchema hEnd).mp hParse⟩

/-
  An error is at the earliest token that it can be at: some
  schema starts with the tokens before it, and whatever starts
  with these and that token is rejected in the same way.
-/
theorem parse_error_earliest
    {tokens : List Token}
    {e : ParseError}
    (hEnd : EndsOnce tokens)
    (h : parse tokens = .error e) :
    ∃ i,
      tokens[i]? = some e.found ∧
        (∃ rest s,
          EndsOnce (tokens.take i ++ rest) ∧
            parse (tokens.take i ++ rest) = .ok s) ∧
        ∀ rest,
          parse (tokens.take (i + 1) ++ rest) = .error e := by
  rcases Parser.manyUntil_prompt Parser.recognizes_declaration
      Parser.avoids_isDeclaration hEnd.hasEnd
      (Nat.lt_succ_self _) (parse_eq_error_iff.mp h) with
    ⟨ts, after, hStream, ⟨us, ds, hWords⟩, hFails⟩
  have hTokens : tokens = ts ++ e.found :: after.ahead := by
    simpa using TokenStream.eq_append_of_ofTokens_eq hStream
  refine ⟨ts.length, ?_, ?_, ?_⟩
  · rw [hTokens]
    simp
  · -- The words that go on are a schema with any end.
    have hSchema :=
      IsSchema.intro hWords
        (rfl : (endToken .first).kind = .endOfText)
    refine ⟨us ++ [endToken .first],
      Schema.ofDeclarations ds, ?_, ?_⟩
    · rw [hTokens]
      simpa using hSchema.endsOnce
    · rw [hTokens]
      simpa using hSchema.parse_eq_ok
  · intro rest
    have hFront :
        tokens.take (ts.length + 1) = ts ++ [e.found] := by
      rw [hTokens]
      simp [List.take_append, List.take_of_length_le]
    rcases TokenStream.exists_ofTokens_append
        (ts ++ [e.found]) rest with ⟨last, hStream'⟩
    rw [hFront, parse_eq_error_iff, hStream']
    exact hFails ⟨rest, last⟩

/- A number that is too large for a sequence number. -/
theorem parse_error_earliest_shape :
    EndsOnce (shapeTokens "256") ∧
      parse (shapeTokens "256") =
        .error ⟨.invalidSeq, ⟨.number, "256", ⟨3, 18⟩⟩⟩ ∧
      ∃ i,
        (shapeTokens "256")[i]? =
          some ⟨.number, "256", ⟨3, 18⟩⟩ ∧
        (∃ rest s,
          EndsOnce ((shapeTokens "256").take i ++ rest) ∧
            parse ((shapeTokens "256").take i ++ rest) =
              .ok s) ∧
        ∀ rest,
          parse ((shapeTokens "256").take (i + 1) ++ rest) =
            .error
              ⟨.invalidSeq, ⟨.number, "256", ⟨3, 18⟩⟩⟩ := by
  have hEnd := endsOnce_shapeTokens "256"
  have hParse :
      parse (shapeTokens "256") =
        .error ⟨.invalidSeq, ⟨.number, "256", ⟨3, 18⟩⟩⟩ := by
    decide +kernel
  exact ⟨hEnd, hParse, parse_error_earliest hEnd hParse⟩

end TagWire
