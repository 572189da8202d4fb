import TagWire.Proofs.Schema.Concatenation
import TagWire.Proofs.Schema.Resolution
import TagWire.Proofs.Words

/-
  The signature of a type is also how a schema text writes it:
  a field with this text for its type is parsed as a field of
  the type. So types with the same signature are the same.

  Main declarations:
    * `Scanner.Ready`
    * `Scanner.read_word`
    * `Scanner.read_mark`
    * `TypeExpr.Nameable`
    * `TypeExpr.exists_read_signature`
    * `parseSource_fieldText`
-/

------------------------------------------------------------
-- Words and Marks
------------------------------------------------------------

namespace TagWire

open Text

/- A character of an identifier is no blank. -/
theorem isBlank_of_isIdentifierPart
    (c : Char)
    (h : isIdentifierPart c = true) :
    isBlank c = false := by
  revert c
  apply forall_isIdentifierPart
  decide +kernel

/- Nor is it a mark, or the start of a comment. -/
theorem ofChar?_of_isIdentifierPart
    (c : Char)
    (h : isIdentifierPart c = true) :
    Mark.ofChar? c = none := by
  revert c
  apply forall_isIdentifierPart
  decide +kernel

namespace Scanner

/- Neither a word nor a comment is open. -/
structure Ready
    (s : Scanner) : Prop where
  word : s.word = []
  outside : s.inComment = false

/- Between two words, at some place. -/
def between
    (place : Position) :
    Scanner :=
  ⟨place, [], place, false⟩

theorem ready_between
    (place : Position) :
    (between place).Ready :=
  ⟨rfl, rfl⟩

variable {s : Scanner}

theorem Ready.flush
    (h : s.Ready) :
    s.flush = [] := by
  simp [Scanner.flush, h.word]

/- Reading on adds the tokens of what is read then. -/
theorem read_append
    (s : Scanner)
    (xs ys : List Char) :
    s.read (xs ++ ys) =
      ((s.read xs).1 ++ ((s.read xs).2.read ys).1,
        ((s.read xs).2.read ys).2) := by
  induction xs generalizing s with
  | nil => rfl
  | cons x xs ih =>
      rw [List.cons_append, read, read]
      simp only [ih, List.append_assoc]

/- The characters of a word are kept until it is complete. -/
theorem read_wordChars
    (h : s.inComment = false)
    (cs : List Char)
    (hWord : ∀ c ∈ cs, isIdentifierPart c = true) :
    ∃ s',
      s.read cs = ([], s') ∧ s'.word = s.word ++ cs ∧
        s'.inComment = false := by
  induction cs generalizing s with
  | nil => exact ⟨s, rfl, (List.append_nil _).symm, h⟩
  | cons c cs ih =>
      rcases List.forall_mem_cons.mp hWord with ⟨hFirst, hRest⟩
      have hHash : c ≠ '#' := by
        rintro rfl
        exact absurd hFirst (by decide)
      have hStep :
          ∃ s₁,
            s.step c = ([], s₁) ∧ s₁.word = s.word ++ [c] ∧
              s₁.inComment = false := by
        unfold step
        simp only [h, hHash, if_false, Bool.false_and,
          Bool.false_eq_true,
          ofChar?_of_isIdentifierPart c hFirst,
          isBlank_of_isIdentifierPart c hFirst]
        split
        · next hEmpty =>
            refine ⟨_, rfl, ?_, rfl⟩
            simp [List.isEmpty_iff.mp hEmpty]
        · exact ⟨_, rfl, rfl, rfl⟩
      rcases hStep with ⟨s₁, hRead, hKept, hOutside⟩
      rcases ih hOutside hRest with
        ⟨s', hReadRest, hKeptRest, hOutside'⟩
      refine ⟨s', ?_, ?_, hOutside'⟩
      · rw [read, hRead]
        simp only [hReadRest, List.append_nil]
      · rw [hKeptRest, hKept, List.append_assoc]
        rfl

/- A word between words is open, and is its own token. -/
theorem read_word
    (h : s.Ready)
    {text : String}
    (hWord : IsWord text)
    (hNonempty : text ≠ "") :
    ∃ s' t,
      s.read text.toList = ([], s') ∧ s'.inComment = false ∧
        s'.flush = [t] ∧ t.kind = wordKind text ∧
        t.text = text := by
  rcases read_wordChars h.outside text.toList hWord with
    ⟨s', hRead, hKept, hOutside⟩
  rw [h.word, List.nil_append] at hKept
  refine
    ⟨s', wordToken text.toList s'.wordStart, hRead, hOutside,
      ?_, ?_, ?_⟩
  · simp [Scanner.flush, hKept, hNonempty]
  · simp [wordToken]
  · simp [wordToken]

/- A mark completes the word before it. -/
theorem read_mark
    (h : s.inComment = false)
    (m : Mark) :
    ∃ s' t,
      s.read [m.char] = (s.flush ++ [t], s') ∧ s'.Ready ∧
        t.kind = .mark m := by
  have hHash : m.char ≠ '#' := by
    cases m <;> decide
  have hStep :
      s.step m.char =
        (s.flush ++ [markToken m s.position],
          between (s.position.after m.char)) := by
    simp [step, h, hHash, Source.ofChar?_eq_some_iff.mpr rfl,
      between]
  refine
    ⟨between (s.position.after m.char),
      markToken m s.position, ?_, ready_between _, rfl⟩
  rw [read, hStep]
  simp only [read, List.append_nil]

/- So does a blank. -/
theorem read_space
    (h : s.inComment = false) :
    ∃ s', s.read [' '] = (s.flush, s') ∧ s'.Ready := by
  have hStep :
      s.step ' ' =
        (s.flush, between (s.position.after ' ')) := by
    have hMark : Mark.ofChar? ' ' = none := by decide
    have hBlank : isBlank ' ' = true := by decide
    simp [step, h, hMark, hBlank, between]
  refine ⟨between (s.position.after ' '), ?_, ready_between _⟩
  rw [read, hStep]
  simp only [read, List.append_nil]

/- A word is complete with the mark behind it. -/
theorem read_word_mark
    (h : s.Ready)
    (text : String)
    (hWord : IsWord text)
    (hNonempty : text ≠ "")
    (m : Mark) :
    ∃ s' t u,
      s.read (text.toList ++ [m.char]) = ([t, u], s') ∧
        s'.Ready ∧ t.kind = wordKind text ∧ t.text = text ∧
        u.kind = .mark m := by
  rcases read_word h hWord hNonempty with
    ⟨s₁, t, hRead, hOutside, hFlush, hKind, hText⟩
  rcases read_mark hOutside m with ⟨s', u, hMark, hReady, hu⟩
  refine ⟨s', t, u, ?_, hReady, hKind, hText, hu⟩
  rw [read_append, hRead, hMark, hFlush]
  rfl

end Scanner

end TagWire

------------------------------------------------------------
-- Types as Tokens
------------------------------------------------------------

namespace TagWire

open Grammar

/- A text that can name a type: no keyword and no builtin. -/
structure IsFreeName
    (name : String) : Prop where
  isName : IsName name
  noKeyword : ∀ k : Keyword, name ≠ k.text
  noBuiltin : ¬ Source.IsBuiltin name

theorem not_isDigit_of_isLetter
    {c : Char}
    (h : IsLetter c) :
    ¬ IsDigit c := by
  intro hDigit
  rcases h with ⟨hLe, _⟩ | ⟨hLe, _⟩ | rfl
  · exact absurd (Char.le_trans hLe hDigit.2) (by decide)
  · exact absurd (Char.le_trans hLe hDigit.2) (by decide)
  · exact absurd hDigit.2 (by decide)

/- No number starts with a letter. -/
theorem not_isNumber_of_isName
    {name : String}
    (h : IsName name) :
    ¬ Source.IsNumber name := by
  rcases h with ⟨c, rest, hChars, hLetter, _⟩
  rintro ⟨sign, digits, hText, hSign, hNonempty, hDigits⟩
  have hStart :
      isIdentifierStart c = true :=
    isIdentifierStart_iff.mpr hLetter
  rw [hChars] at hText
  rcases hSign with rfl | rfl | rfl
  · -- Without a sign, the first letter would be a digit.
    rw [List.nil_append] at hText
    subst hText
    have hDigit := hDigits c List.mem_cons_self
    exact absurd hDigit (not_isDigit_of_isLetter hLetter)
  · cases hText
    exact absurd hStart (by decide)
  · cases hText
    exact absurd hStart (by decide)

/- The kind of a word that names a type. -/
theorem IsFreeName.wordKind_eq
    {name : String}
    (h : IsFreeName name) :
    wordKind name = .identifier :=
  (Source.isWordKind_iff.mp
    (.identifier h.noKeyword h.noBuiltin
      (not_isNumber_of_isName h.isName))).symm

theorem IsFreeName.isWord
    {name : String}
    (h : IsFreeName name) :
    IsWord name :=
  isWord_of_isIdentifier (isIdentifier_iff.mpr h.isName)

theorem IsFreeName.ne_empty
    {name : String}
    (h : IsFreeName name) :
    name ≠ "" := by
  rcases h.isName with ⟨c, rest, hChars, _⟩
  rintro rfl
  cases hChars

theorem scalarName_ne_empty
    (kind : ScalarKind) :
    kind.name ≠ "" := by
  have hAll : ∀ k ∈ ScalarKind.all, k.name ≠ "" := by
    decide
  exact hAll kind kind.mem_all

theorem wordKind_scalarName
    (kind : ScalarKind) :
    wordKind kind.name = .builtin := by
  have hAll :
      ∀ k ∈ ScalarKind.all, wordKind k.name = .builtin := by
    decide +kernel
  exact hAll kind kind.mem_all

namespace TypeExpr

/- All names in a type can name types. -/
def Nameable
    (type : TypeExpr String) : Prop :=
  ∀ name, Part (.named name) type → IsFreeName name

theorem Nameable.element
    {element : TypeExpr String}
    (h : (list element).Nameable) :
    element.Nameable :=
  fun name hPart => h name (.element hPart)

theorem Nameable.value
    {key : ScalarKind}
    {value : TypeExpr String}
    (h : (map key value).Nameable) :
    value.Nameable :=
  fun name hPart => h name (.value hPart)

/-
  The signature of a type, read between words, gives tokens
  that write the type. The last of them may be an open word,
  which whatever stands behind the type completes.
-/
theorem exists_read_signature
    {type : TypeExpr String}
    (h : type.Nameable)
    {s : Scanner}
    (hReady : s.Ready) :
    ∃ ts s',
      s.read (type.signatureWith id).toList = (ts, s') ∧
        s'.inComment = false ∧
          IsType (ts ++ s'.flush) type := by
  induction type generalizing s with
  | scalar kind =>
      rcases Scanner.read_word hReady (isWord_scalarName kind)
          (scalarName_ne_empty kind) with
        ⟨s', t, hRead, hOutside, hFlush, hKind, hText⟩
      refine ⟨[], s', hRead, hOutside, ?_⟩
      rw [hFlush]
      exact
        .scalar (hKind.trans (wordKind_scalarName kind)) hText
  | named name =>
      have hName := h name .refl
      rcases Scanner.read_word hReady hName.isWord
          hName.ne_empty with
        ⟨s', t, hRead, hOutside, hFlush, hKind, hText⟩
      refine ⟨[], s', hRead, hOutside, ?_⟩
      have hText : t.text = name := hText
      have hIs : IsIdentifier t :=
        ⟨hKind.trans hName.wordKind_eq, hText ▸ hName.isName⟩
      rw [hFlush, ← hText]
      exact .named hIs
  | list element ih =>
      have hChars :
          ((list element).signatureWith id).toList =
            ("list".toList ++ [Mark.leftBracket.char]) ++
              ((element.signatureWith id).toList ++
                [Mark.rightBracket.char]) := by
        simp [signatureWith, Mark.char]
      rcases Scanner.read_word_mark hReady "list"
          (by decide +kernel) (by decide) .leftBracket with
        ⟨s₁, word, opening, hOpen, hReady₁, hKind, hText,
          hOpening⟩
      rcases ih h.element hReady₁ with
        ⟨ts, s₂, hElement, hOutside, hType⟩
      rcases Scanner.read_mark hOutside .rightBracket with
        ⟨s₃, closing, hClose, hReady₃, hClosing⟩
      refine
        ⟨[word, opening] ++ (ts ++ (s₂.flush ++ [closing])), s₃,
          ?_, hReady₃.outside, ?_⟩
      · rw [hChars, Scanner.read_append, hOpen,
          Scanner.read_append, hElement, hClose]
      · rw [hReady₃.flush, List.append_nil,
          ← List.append_assoc ts]
        exact .list hKind hText hOpening hType hClosing
  | map key value ih =>
      have hChars :
          ((map key value).signatureWith id).toList =
            ("map".toList ++ [Mark.leftBracket.char]) ++
              ((key.name.toList ++ [Mark.rightBracket.char]) ++
                (value.signatureWith id).toList) := by
        simp [signatureWith, Mark.char]
      rcases Scanner.read_word_mark hReady "map"
          (by decide +kernel) (by decide) .leftBracket with
        ⟨s₁, word, opening, hOpen, hReady₁, hKind, hText,
          hOpening⟩
      rcases Scanner.read_word_mark hReady₁ key.name
          (isWord_scalarName key) (scalarName_ne_empty key)
          .rightBracket with
        ⟨s₂, keyWord, closing, hKey, hReady₂, hKeyKind,
          hKeyText, hClosing⟩
      rcases ih h.value hReady₂ with
        ⟨ts, s₃, hValue, hOutside, hType⟩
      refine
        ⟨[word, opening] ++ ([keyWord, closing] ++ ts), s₃,
          ?_, hOutside, ?_⟩
      · rw [hChars, Scanner.read_append, hOpen,
          Scanner.read_append, hKey, hValue]
      · exact .map hKind hText hOpening
          (hKeyKind.trans (wordKind_scalarName key)) hKeyText
          hClosing hType

end TypeExpr

end TagWire

------------------------------------------------------------
-- Fields of a Written Type
------------------------------------------------------------

namespace TagWire

open Grammar

/- The text of a message with one field, given its type. -/
def fieldText
    (signature : String) :
    String :=
  "message M " ++ Text.inBraces ("seq=1 " ++ signature ++ " f;")

/- What stands in front of the type, and what behind it. -/
def fieldFront : String :=
  "message M " ++ Text.leftBrace ++ " seq=1 "

def fieldBack : String :=
  " f; " ++ Text.rightBrace

theorem toList_fieldText
    (signature : String) :
    (fieldText signature).toList =
      fieldFront.toList ++
        (signature.toList ++ fieldBack.toList) := by
  have hOpen : " seq=1 " = " " ++ "seq=1 " := rfl
  have hClose : " f; " = " f;" ++ " " := rfl
  rw [fieldText, fieldFront, fieldBack, Text.inBraces, hOpen,
    hClose]
  simp only [String.toList_append, List.append_assoc]

/- The schema that such a text declares. -/
def fieldSchema
    (type : TypeExpr String) :
    ParsedSchema where
  enums := []
  messages :=
    [⟨"M", [⟨"f", 1, false, type, ⟨1, 13⟩⟩], ⟨1, 1⟩⟩]
  services := []

theorem fieldSchema_injective
    {type type' : TypeExpr String}
    (h : fieldSchema type = fieldSchema type') :
    type = type' := by
  simpa [fieldSchema] using h

/- The tokens in front of the type. -/
def fieldOpening : List Token :=
  [
    ⟨.keyword .message, "message", ⟨1, 1⟩⟩,
    ⟨.identifier, "M", ⟨1, 9⟩⟩,
    markToken .leftBrace ⟨1, 11⟩,
    ⟨.keyword .seq, "seq", ⟨1, 13⟩⟩,
    markToken .assign ⟨1, 16⟩,
    ⟨.number, "1", ⟨1, 17⟩⟩
  ]

theorem read_fieldOpening :
    Scanner.initial.read fieldFront.toList =
      (fieldOpening, Scanner.between ⟨1, 19⟩) := by
  decide +kernel

/- Behind the type are the name of the field and the ends. -/
theorem exists_run_fieldEnding
    {s : Scanner}
    (h : s.inComment = false) :
    ∃ name semicolon brace ending,
      s.run fieldBack.toList =
          s.flush ++ [name, semicolon, brace, ending] ∧
        name.kind = .identifier ∧ name.text = "f" ∧
        semicolon.kind = .mark .semicolon ∧
        brace.kind = .mark .rightBrace ∧
        ending.kind = .endOfText := by
  have hChars :
      fieldBack.toList =
        [' '] ++
          (("f".toList ++ [Mark.semicolon.char]) ++
            ([' '] ++ ([Mark.rightBrace.char] ++ []))) := by
    decide
  rcases Scanner.read_space h with ⟨s₁, hSpace, hReady₁⟩
  rcases Scanner.read_word_mark hReady₁ "f"
      (by decide +kernel) (by decide) .semicolon with
    ⟨s₂, name, semicolon, hName, hReady₂, hKind, hText,
      hSemicolon⟩
  rcases Scanner.read_space hReady₂.outside with
    ⟨s₃, hSpace₃, hReady₃⟩
  rcases Scanner.read_mark hReady₃.outside .rightBrace with
    ⟨s₄, brace, hBrace, hReady₄, hClosing⟩
  refine
    ⟨name, semicolon, brace, endToken s₄.position, ?_, ?_,
      hText, hSemicolon, hClosing, rfl⟩
  · rw [hChars, Scanner.run_append, hSpace, Scanner.run_append,
      hName, Scanner.run_append, hSpace₃, Scanner.run_append,
      hBrace, hReady₂.flush, hReady₃.flush, Scanner.run,
      hReady₄.flush]
    rfl
  · exact hKind.trans (by decide +kernel)

/- The text of a nameable type is a schema by the grammar. -/
theorem isSchema_fieldText
    {type : TypeExpr String}
    (h : type.Nameable) :
    IsSchema (tokenize (fieldText (type.signatureWith id)))
      (fieldSchema type) := by
  rcases TypeExpr.exists_read_signature h
      (Scanner.ready_between ⟨1, 19⟩) with
    ⟨ts, s, hRead, hOutside, hType⟩
  rcases exists_run_fieldEnding hOutside with
    ⟨name, semicolon, brace, ending, hRun, hKind, hText,
      hSemicolon, hBrace, hEnding⟩
  have hTokens :
      tokenize (fieldText (type.signatureWith id)) =
        fieldOpening ++
          (ts ++
            (s.flush ++ [name, semicolon, brace, ending])) := by
    unfold tokenize
    rw [toList_fieldText, Scanner.run_append,
      read_fieldOpening, Scanner.run_append, hRead, hRun]
  have hF : IsName "f" := isIdentifier_iff.mp (by decide)
  have hM : IsName "M" := isIdentifier_iff.mp (by decide)
  have hOne : IsSeqNumber "1" 1 :=
    seqNumber?_eq_some_iff.mp (by decide)
  have hField :=
    IsField.required
      (IsRequiredField.intro
        (show fieldOpening[3].kind = .keyword .seq from rfl)
        (show fieldOpening[4].kind = .mark .assign from rfl)
        (show fieldOpening[5].kind = .number from rfl)
        hOne hType ⟨hKind, hText ▸ hF⟩ hSemicolon)
  have hMessage :=
    IsDeclaration.message
      (show fieldOpening[0].kind = .keyword .message from rfl)
      (show IsIdentifier fieldOpening[1] from ⟨rfl, hM⟩)
      (show fieldOpening[2].kind = .mark .leftBrace from rfl)
      (.cons hField .nil) hBrace
  have hSchema := IsSchema.intro (.cons hMessage .nil) hEnding
  have hUpper : Names.firstUpper "M" = "M" := by decide
  have hDeclared :
      Schema.ofDeclarations
          [.message
            ⟨"M", [⟨"f", 1, false, type, ⟨1, 13⟩⟩], ⟨1, 1⟩⟩] =
        fieldSchema type :=
    rfl
  rw [hTokens]
  simpa [fieldOpening, hText, hUpper, hDeclared] using hSchema

/-
  The text of a type is read as the type: a field with this
  text for its type is parsed as a field of the type. So no
  other type is written in the same way.
-/
theorem parseSource_fieldText
    {type : TypeExpr String}
    (h : type.Nameable) :
    parseSource (fieldText (type.signatureWith id)) =
      .ok (fieldSchema type) ∧
    ∀ type' : TypeExpr String,
      type'.Nameable →
        type'.signatureWith id = type.signatureWith id →
          type' = type := by
  have hParse :
      ∀ t : TypeExpr String,
        t.Nameable →
          parseSource (fieldText (t.signatureWith id)) =
            .ok (fieldSchema t) :=
    fun t ht =>
      parseSource_eq_ok_iff.mpr
        (isSchema_fieldText ht).parse_eq_ok
  refine ⟨hParse type h, ?_⟩
  intro type' h' hSame
  have hSchema := hParse type' h'
  rw [hSame, hParse type h] at hSchema
  exact (fieldSchema_injective (Except.ok.inj hSchema)).symm

/- A map of lists of maps, with a float for its key. -/
def nestedType : TypeExpr String :=
  .map (.num (.float .float32))
    (.list (.map .string (.list (.named "color_2"))))

theorem parseSource_fieldText_nested :
    nestedType.Nameable ∧
    nestedType.signatureWith id =
      "map[float32]list[map[string]list[color_2]]" ∧
    parseSource (fieldText (nestedType.signatureWith id)) =
      .ok (fieldSchema nestedType) ∧
    ∀ type' : TypeExpr String,
      type'.Nameable →
        type'.signatureWith id = nestedType.signatureWith id →
          type' = nestedType := by
  have hNameable : nestedType.Nameable := by
    intro name hPart
    simp only [nestedType, TypeExpr.part_map_iff,
      TypeExpr.part_list_iff, TypeExpr.part_named_iff] at hPart
    have hName : name = "color_2" := by simpa using hPart
    rw [hName]
    refine ⟨isIdentifier_iff.mp (by decide), ?_, ?_⟩
    · intro k
      cases k <;> decide
    · rw [← Source.mem_builtinNames_iff]
      decide
  exact
    ⟨hNameable, by decide +kernel,
      parseSource_fieldText hNameable⟩

end TagWire
