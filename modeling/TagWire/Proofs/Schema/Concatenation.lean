import TagWire.Compile
import TagWire.Proofs.Schema.Lexemes
import TagWire.Proofs.Schema.Parsing
import TagWire.Proofs.Schema.Shifting

/-
  A text behind another one, on lines of its own, is read as
  it is by itself, only further down. If the first text is a
  schema, both together declare what each of them does.

  Main declarations:
    * `Scanner.run_append` and `Scanner.run_down`
    * `exists_tokenize_append`
    * `endsOnce_tokenize`
    * `parse_append`
    * `parse_down`
    * `parseSource_append`
-/

------------------------------------------------------------
-- Scanning Two Texts
------------------------------------------------------------

namespace TagWire

theorem Position.after_down
    (p : Position)
    (c : Char)
    (lines : Nat) :
    (p.down lines).after c = (p.after c).down lines := by
  unfold Position.after Position.down
  split
  · simp [Nat.add_right_comm]
  · rfl

namespace Scanner

def down
    (s : Scanner)
    (lines : Nat) :
    Scanner :=
  { s with
    position := s.position.down lines
    wordStart := s.wordStart.down lines }

/-
  Read some characters: the tokens they complete, and what is
  known after them.
-/
def read
    (s : Scanner) :
    List Char → List Token × Scanner
| [] => ([], s)
| c :: cs =>
    let (tokens, s') := s.step c
    (tokens ++ (s'.read cs).1, (s'.read cs).2)

/- Scanning goes on with what is known after some characters. -/
theorem run_append
    (s : Scanner)
    (xs ys : List Char) :
    s.run (xs ++ ys) = (s.read xs).1 ++ (s.read xs).2.run ys := by
  induction xs generalizing s with
  | nil => rfl
  | cons x xs ih =>
      calc
        s.run (x :: (xs ++ ys))
          = (s.step x).1 ++ (s.step x).2.run (xs ++ ys) := rfl
        _ = (s.read (x :: xs)).1 ++
              (s.read (x :: xs)).2.run ys := by
            rw [ih, ← List.append_assoc]
            rfl

/- The place after a character, whatever that character does. -/
theorem position_step
    (s : Scanner)
    (c : Char) :
    (s.step c).2.position = s.position.after c := by
  unfold step
  simp only
  split
  · rfl
  · split
    · rfl
    · split
      · rfl
      · split
        · rfl
        · split <;> rfl

theorem line_read
    (s : Scanner)
    (cs : List Char) :
    (s.read cs).2.position.line =
      s.position.line + cs.count '\n' := by
  induction cs generalizing s with
  | nil => rfl
  | cons c cs ih =>
      have hStep :
          (s.read (c :: cs)).2 = ((s.step c).2.read cs).2 := rfl
      rw [hStep, ih, position_step, Position.after,
        List.count_cons]
      split
      · next hNewline =>
          simp only [hNewline, beq_self_eq_true, if_true]
          omega
      · next hOther => simp [hOther]

/- A newline ends words and comments. -/
theorem step_newline
    (s : Scanner) :
    s.step '\n' = (s.flush, initial.down s.position.line) := by
  have hNoMark : Mark.ofChar? '\n' = none := by decide
  have hPlace :
      s.position.after '\n' =
        Position.first.down s.position.line := by
    simp [Position.after, Position.first, Position.down,
      Nat.add_comm]
  simp [step, hNoMark, Text.isBlank_newline, hPlace, initial,
    down]

theorem flush_down
    (s : Scanner)
    (lines : Nat) :
    (s.down lines).flush = s.flush.map (·.down lines) := by
  cases hEmpty : s.word.isEmpty <;>
    simp [flush, down, hEmpty, wordToken, Token.down]

/- What a character completes does not depend on its place. -/
theorem step_down
    (s : Scanner)
    (c : Char)
    (lines : Nat) :
    (s.down lines).step c =
      ((s.step c).1.map (·.down lines),
        (s.step c).2.down lines) := by
  have hComment : (s.down lines).inComment = s.inComment := rfl
  have hWord : (s.down lines).word = s.word := rfl
  have hPosition :
      (s.down lines).position = s.position.down lines := rfl
  -- No branch depends on what moves down.
  unfold step
  simp only [hComment, hWord, hPosition, Position.after_down,
    flush_down]
  by_cases hOpen : (s.inComment && decide (c ≠ '\n')) = true
  · simp only [if_pos hOpen]
    rfl
  · simp only [if_neg hOpen]
    by_cases hHash : c = '#'
    · simp only [if_pos hHash]
      rfl
    · simp only [if_neg hHash]
      cases Mark.ofChar? c with
      | some m =>
          simp only [List.map_append]
          rfl
      | none =>
          by_cases hBlank : Text.isBlank c = true
          · simp only [if_pos hBlank]
            rfl
          · simp only [if_neg hBlank]
            cases hEmpty : s.word.isEmpty <;> rfl

/- What is read does not depend on where it is. -/
theorem run_down
    (s : Scanner)
    (cs : List Char)
    (lines : Nat) :
    (s.down lines).run cs =
      (s.run cs).map (·.down lines) := by
  induction cs generalizing s with
  | nil =>
      rw [run, flush_down, run, List.map_append]
      rfl
  | cons c cs ih =>
      have hStep := s.step_down c lines
      calc
        (s.down lines).run (c :: cs)
          = ((s.down lines).step c).1 ++
              ((s.down lines).step c).2.run cs := rfl
        _ = (s.run (c :: cs)).map (·.down lines) := by
            rw [hStep, ih, ← List.map_append]
            rfl

end Scanner

end TagWire

------------------------------------------------------------
-- Tokens of Two Texts
------------------------------------------------------------

namespace TagWire

open Source

/- The tokens of a text end with its end. -/
theorem endsOnce_tokenize
    (text : String) :
    EndsOnce (tokenize text) := by
  rcases (Scanner.reads_initial text.toList).run
      (Nat.zero_le _) rfl with
    ⟨items, hRun, hLists⟩
  refine ⟨_, _, hRun, rfl, fun t ht => ?_⟩
  rcases List.mem_map.mp ht with ⟨⟨i, u⟩, hMem, rfl⟩
  exact ((hLists.mem_iff i u).mp hMem).1.kind_ne_endOfText

/- The number of lines of a text. -/
def lineCount
    (text : String) :
    Nat :=
  1 + text.toList.count '\n'

/-
  The tokens of a text with another one behind it are its own
  ones without their end, and those of the other text.
-/
theorem exists_tokenize_append
    (a b : String) :
    ∃ front place,
      tokenize a = front ++ [endToken place] ∧
        tokenize (a ++ "\n" ++ b) =
          front ++
            (tokenize b).map (·.down (lineCount a)) := by
  let state := (Scanner.initial.read a.toList).2
  have hLine :
      state.position.line = lineCount a :=
    Scanner.line_read Scanner.initial a.toList
  refine ⟨(Scanner.initial.read a.toList).1 ++ state.flush,
    state.position, ?_, ?_⟩
  · have hRun := Scanner.initial.run_append a.toList []
    rw [List.append_nil] at hRun
    rw [tokenize, hRun, List.append_assoc]
    rfl
  · have hNewline :
        state.run ('\n' :: b.toList) =
          state.flush ++
            (Scanner.initial.down state.position.line).run
              b.toList := by
      rw [Scanner.run, Scanner.step_newline]
    have hText :
        (a ++ "\n" ++ b).toList =
          a.toList ++ '\n' :: b.toList := by
      simp
    rw [tokenize, hText, Scanner.run_append, hNewline,
      Scanner.run_down, hLine, List.append_assoc]
    rfl

end TagWire

------------------------------------------------------------
-- Schemas of Two Texts
------------------------------------------------------------

namespace TagWire

/- What two schemas declare, the first one first. -/
def Schema.append
    {ρ : Type}
    (s s' : Schema ρ) :
    Schema ρ where
  enums := s.enums ++ s'.enums
  messages := s.messages ++ s'.messages
  services := s.services ++ s'.services

theorem Schema.ofDeclarations_append
    {ρ : Type}
    (ds ds' : List (Declaration ρ)) :
    Schema.ofDeclarations (ds ++ ds') =
      (Schema.ofDeclarations ds).append
        (Schema.ofDeclarations ds') := by
  simp [Schema.ofDeclarations, Schema.append]

/- The last of some tokens is not in what is before them. -/
theorem TokenStream.ofTokens_append
    (ts : List Token)
    {us : List Token}
    (hNonempty : us ≠ []) :
    TokenStream.ofTokens (ts ++ us) =
      (TokenStream.ofTokens us).prepend ts := by
  have hLast := List.getLast?_eq_some_getLast hNonempty
  simp [TokenStream.ofTokens, TokenStream.prepend,
    List.getLast?_append, hLast]

/-
  Declarations add to what is parsed from the tokens behind
  them, and change nothing else.
-/
theorem parse_append
    {ts us : List Token}
    {ds : List (Declaration String)}
    (h : Grammar.IsRepeated Grammar.IsDeclaration ts ds)
    (hNonempty : us ≠ []) :
    parse (ts ++ us) =
      (parse us).map (Schema.ofDeclarations ds).append := by
  rw [parse_eq, parse_eq,
    TokenStream.ofTokens_append ts hNonempty,
    Parser.declarations_prepend h]
  cases Parser.declarations (TokenStream.ofTokens us) with
  | error e => rfl
  | ok r => simp [Except.map, Schema.ofDeclarations_append]

theorem TokenStream.ofTokens_map_down
    {tokens : List Token}
    (hNonempty : tokens ≠ [])
    (lines : Nat) :
    TokenStream.ofTokens (tokens.map (·.down lines)) =
      (TokenStream.ofTokens tokens).down lines := by
  have hLast := List.getLast?_eq_some_getLast hNonempty
  simp [TokenStream.ofTokens, TokenStream.down,
    List.getLast?_map, hLast]

/- Parsing does not depend on where the tokens are. -/
theorem parse_down
    {tokens : List Token}
    (hNonempty : tokens ≠ [])
    (lines : Nat) :
    parse (tokens.map (·.down lines)) =
      match parse tokens with
      | .ok s => .ok (s.down lines)
      | .error e => .error (e.down lines) := by
  have hShifts :
      Parser.Shifts lines (List.map (·.down lines))
        Parser.declarations Parser.declarations :=
    Parser.shifts_manyUntil Parser.shifts_declaration
  rw [parse_eq, parse_eq,
    TokenStream.ofTokens_map_down hNonempty, hShifts]
  cases Parser.declarations (TokenStream.ofTokens tokens) with
  | error e => rfl
  | ok r =>
      exact congrArg Except.ok
        (Schema.ofDeclarations_map_down r.1 lines)

/- Tokens before the end of a schema are its declarations. -/
theorem Grammar.IsSchema.exists_isRepeated
    {front : List Token}
    {ending : Token}
    {s : ParsedSchema}
    (h : Grammar.IsSchema (front ++ [ending]) s) :
    ∃ ds,
      Grammar.IsRepeated Grammar.IsDeclaration front ds ∧
        s = Schema.ofDeclarations ds := by
  generalize hTokens : front ++ [ending] = tokens at h
  cases h with
  | @intro ts ds last hDeclarations _ =>
      rcases List.append_inj' hTokens rfl with ⟨rfl, _⟩
      exact ⟨ds, hDeclarations, rfl⟩

/- What a text declares is what is parsed from its tokens. -/
theorem parseSource_eq_ok_iff
    {text : String}
    {s : ParsedSchema} :
    parseSource text = .ok s ↔ parse (tokenize text) = .ok s := by
  unfold parseSource parseText
  cases parse (tokenize text) <;> simp [Except.mapError]

theorem parseSource_eq_error_iff
    {text : String}
    {e : Error} :
    parseSource text = .error e ↔
      ∃ e',
        e = .parse e' ∧ parse (tokenize text) = .error e' := by
  unfold parseSource parseText
  cases parse (tokenize text) <;>
    simp [Except.mapError, eq_comm]

/-
  A schema and a text behind it, on lines of its own, declare
  what the schema does and what the text does. If that text is
  no schema, the error is the one that it has by itself.
-/
theorem parseSource_append
    (a b : String) :
    (∃ front place,
      tokenize a = front ++ [endToken place] ∧
        tokenize (a ++ "\n" ++ b) =
          front ++ (tokenize b).map (·.down (lineCount a))) ∧
    ∀ s,
      parseSource a = .ok s →
        (∀ s',
          parseSource b = .ok s' →
            parseSource (a ++ "\n" ++ b) =
              .ok (s.append (s'.down (lineCount a)))) ∧
        ∀ e,
          parseSource b = .error e →
            ∃ e',
              e = .parse e' ∧
                parseSource (a ++ "\n" ++ b) =
                  .error (.parse (e'.down (lineCount a))) := by
  have hTokens := exists_tokenize_append a b
  refine ⟨hTokens, fun s hSchema => ?_⟩
  rcases hTokens with ⟨front, place, hFront, hBoth⟩
  have hDerived :=
    isSchema_of_parse_eq_ok (endsOnce_tokenize a)
      (parseSource_eq_ok_iff.mp hSchema)
  rw [hFront] at hDerived
  rcases hDerived.exists_isRepeated with
    ⟨ds, hDeclarations, rfl⟩
  have hNonempty : tokenize b ≠ [] := by
    rcases endsOnce_tokenize b with ⟨inner, ending, hEnd, _⟩
    simp [hEnd]
  have hParse :
      parse (tokenize (a ++ "\n" ++ b)) =
        (parse ((tokenize b).map (·.down (lineCount a)))).map
          (Schema.ofDeclarations ds).append := by
    rw [hBoth]
    exact parse_append hDeclarations (by simpa using hNonempty)
  rw [parse_down hNonempty] at hParse
  constructor
  · intro s' hOk
    rw [parseSource_eq_ok_iff.mp hOk] at hParse
    exact parseSource_eq_ok_iff.mpr hParse
  · intro e hError
    rcases parseSource_eq_error_iff.mp hError with
      ⟨e', rfl, hFails⟩
    rw [hFails] at hParse
    exact ⟨e', rfl, parseSource_eq_error_iff.mpr
      ⟨_, rfl, hParse⟩⟩

/- A text whose comment goes on up to its end. -/
def colorText : String :=
  "enum color " ++ Text.inBraces "red" ++ " # shades"

/- A text that refers to the enum of the other one. -/
def fillText : String :=
  "message shape " ++ Text.leftBrace ++
    "\n  seq = 1 color fill;\n" ++ Text.rightBrace

/- A text that is no schema, by a number that is too large. -/
def brokenText : String :=
  "\nmessage shape " ++ Text.inBraces "seq = 300 color fill;"

def colorSchema : ParsedSchema where
  enums := [⟨"Color", ["Red"], ⟨1, 1⟩⟩]
  messages := []
  services := []

/- What the second text declares, from some line on. -/
def fillSchema
    (line : Nat) :
    ParsedSchema where
  enums := []
  messages :=
    [
      ⟨"Shape",
        [⟨"fill", 1, false, .named "color", ⟨line + 1, 3⟩⟩],
        ⟨line, 1⟩⟩
    ]
  services := []

/- The number that is too large, on some line. -/
def tooLargeSeq
    (line : Nat) :
    ParseError :=
  ⟨.invalidSeq, ⟨.number, "300", ⟨line, 23⟩⟩⟩

/- What is behind the comment moves down by one line. -/
theorem parseSource_append_color :
    parseSource colorText = .ok colorSchema ∧
    parseSource fillText = .ok (fillSchema 1) ∧
    parseSource (colorText ++ "\n" ++ fillText) =
      .ok (colorSchema.append (fillSchema 2)) ∧
    parseSource brokenText = .error (.parse (tooLargeSeq 2)) ∧
    parseSource (colorText ++ "\n" ++ brokenText) =
      .error (.parse (tooLargeSeq 3)) := by
  have hLines : lineCount colorText = 1 := by decide +kernel
  have hColor : parseSource colorText = .ok colorSchema := by
    rw [parseSource_eq_ok_iff]
    decide +kernel
  have hFill : parseSource fillText = .ok (fillSchema 1) := by
    rw [parseSource_eq_ok_iff]
    decide +kernel
  have hBroken :
      parseSource brokenText =
        .error (.parse (tooLargeSeq 2)) := by
    refine parseSource_eq_error_iff.mpr ⟨_, rfl, ?_⟩
    decide +kernel
  have hAppend :=
    (parseSource_append colorText fillText).2 colorSchema hColor
  have hAppend' :=
    (parseSource_append colorText brokenText).2 colorSchema
      hColor
  have hBoth := hAppend.1 (fillSchema 1) hFill
  rcases hAppend'.2 _ hBroken with ⟨e, hError, hMoved⟩
  cases hError
  rw [hLines] at hBoth hMoved
  exact ⟨hColor, hFill, hBoth, hBroken, hMoved⟩

end TagWire
