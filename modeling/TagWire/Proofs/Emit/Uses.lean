import TagWire.Emit.Message
import TagWire.Proofs.Words

/-
  Which functions a piece of generated code defines, and which
  routines it calls. Both are read off the text: the word in
  front of an opening bracket is a function that is defined
  there, if the word in front of it is `fn`, or called there.

  Main declarations:
    * `Emit.Use`
    * `Emit.uses`
    * `Emit.definitions`
    * `Emit.calls`
    * `Emit.Silent`
    * `Emit.uses_lines`
    * `Emit.uses_join`
    * `Emit.usesFrom_routine`
-/

------------------------------------------------------------
-- Functions in a Text
------------------------------------------------------------

namespace TagWire

namespace Emit

/- What a text does with a function. -/
inductive Use where
| definition (name : String)
| call (name : String)
deriving DecidableEq, Repr

namespace Use

/- The function that is defined. -/
def definition? : Use → Option String
| definition name => some name
| call _ => none

/- The routine that is called. -/
def call? : Use → Option String
| definition _ => none
| call name => some name

end Use

/- The names of routines start with one of two words. -/
def IsRoutineName
    (word : List Char) : Prop :=
  "marshal_".toList <+: word ∨ "unmarshal_".toList <+: word

instance
    (word : List Char) :
    Decidable (IsRoutineName word) :=
  inferInstanceAs (Decidable (_ ∨ _))

/-
  What a word in front of a bracket does, given the characters
  in front of the word, the last one first. Behind a colon it
  names a function of another module. Of the calls, only those
  of routines are told.
-/
def useOf
    (word context : List Char) :
    Option Use :=
  if [' ', 'n', 'f'] <+: context then
    some (.definition (String.ofList word))
  else if context.head? = some ':' then
    none
  else if IsRoutineName word then
    some (.call (String.ofList word))
  else
    none

/- The use at a bracket, given what is in front of it. -/
def useAt
    (before : List Char) :
    Option Use :=
  useOf (before.takeWhile isIdentifierPart).reverse
    (before.dropWhile isIdentifierPart)

/- The uses in some characters, given those in front of them. -/
def usesFrom
    (before : List Char) :
    List Char → List Use
| [] => []
| c :: rest =>
    (if c = '(' then (useAt before).toList else []) ++
      usesFrom (c :: before) rest

/- The uses of functions in a text, in order. -/
def uses
    (text : String) :
    List Use :=
  usesFrom [] text.toList

/- The functions that a text defines, in order. -/
def definitions
    (text : String) :
    List String :=
  (uses text).filterMap Use.definition?

/- The routines that a text calls, in order. -/
def calls
    (text : String) :
    List String :=
  (uses text).filterMap Use.call?

------------------------------------------------------------
-- Texts in Sequence
------------------------------------------------------------

theorem usesFrom_append
    (before xs ys : List Char) :
    usesFrom before (xs ++ ys) =
      usesFrom before xs ++
        usesFrom (xs.reverse ++ before) ys := by
  induction xs generalizing before with
  | nil => rfl
  | cons c rest ih =>
      simp only [List.cons_append, usesFrom, ih,
        List.append_assoc, List.reverse_cons,
        List.nil_append]

/- Without a bracket there are no uses. -/
theorem usesFrom_of_not_mem
    (before : List Char)
    {xs : List Char}
    (h : '(' ∉ xs) :
    usesFrom before xs = [] := by
  induction xs generalizing before with
  | nil => rfl
  | cons c rest ih =>
      rw [List.mem_cons, not_or] at h
      rw [usesFrom, if_neg (Ne.symm h.1), ih _ h.2]
      rfl

/- A newline ends a word, and no use is told by what it ends. -/
private theorem useOf_newline
    (word context others : List Char) :
    useOf word (context ++ '\n' :: others) =
      useOf word context := by
  have hPrefix :
      [' ', 'n', 'f'] <+: context ++ '\n' :: others ↔
        [' ', 'n', 'f'] <+: context := by
    rcases context with _ | ⟨a, _ | ⟨b, _ | ⟨c, rest⟩⟩⟩ <;>
      simp [List.cons_prefix_cons]
  have hHead :
      (context ++ '\n' :: others).head? = some ':' ↔
        context.head? = some ':' := by
    cases context <;> simp
  simp only [useOf, hPrefix, hHead]

/- What is in front of a line does not matter to a use in it. -/
private theorem useAt_newline
    (before others : List Char) :
    useAt (before ++ '\n' :: others) = useAt before := by
  have hNewline : isIdentifierPart '\n' = false := by decide
  have hWord :
      (before ++ '\n' :: others).takeWhile isIdentifierPart =
        before.takeWhile isIdentifierPart := by
    rw [List.takeWhile_append,
      List.takeWhile_cons_of_neg (by simp [hNewline]),
      List.append_nil]
    split
    · next hAll =>
        exact ((List.takeWhile_prefix _).eq_of_length hAll).symm
    · rfl
  have hContext :
      (before ++ '\n' :: others).dropWhile isIdentifierPart =
        before.dropWhile isIdentifierPart ++ '\n' :: others := by
    rw [List.dropWhile_append,
      List.dropWhile_cons_of_neg (by simp [hNewline])]
    split
    · next hEmpty =>
        rw [List.isEmpty_iff.mp hEmpty, List.nil_append]
    · rfl
  rw [useAt, hWord, hContext, useOf_newline, ← useAt]

private theorem usesFrom_newline
    (before others xs : List Char) :
    usesFrom (before ++ '\n' :: others) xs =
      usesFrom before xs := by
  induction xs generalizing before with
  | nil => rfl
  | cons c rest ih =>
      rw [usesFrom, usesFrom, useAt_newline,
        ← List.cons_append, ih]

/- Lines are told one by one. -/
theorem uses_newline
    (text text' : String) :
    uses (text ++ "\n" ++ text') = uses text ++ uses text' := by
  have hNewline :
      ∀ before, usesFrom before "\n".toList = [] :=
    fun _ => rfl
  unfold uses
  rw [String.toList_append, String.toList_append,
    usesFrom_append, usesFrom_append, hNewline,
    List.append_nil]
  congr 1
  have hBefore :
      (text.toList ++ "\n".toList).reverse ++ [] =
        [] ++ '\n' :: text.toList.reverse := by
    simp
  rw [hBefore, usesFrom_newline]

theorem uses_lines
    (parts : List String) :
    uses (lines parts) = parts.flatMap uses := by
  unfold lines
  induction parts with
  | nil => rfl
  | cons part rest ih =>
      cases rest with
      | nil => simp
      | cons next rest =>
          rw [String.intercalate_cons_cons, uses_newline, ih]
          rfl

/- A text that ends with a newline. -/
def Ended
    (text : String) : Prop :=
  ∃ front, text = front ++ "\n"

theorem uses_append_of_ended
    {text : String}
    (h : Ended text)
    (rest : String) :
    uses (text ++ rest) = uses text ++ uses rest := by
  rcases h with ⟨front, rfl⟩
  have hEmpty : uses "" = [] := rfl
  have hText := uses_newline front ""
  rw [String.append_empty, hEmpty, List.append_nil] at hText
  rw [uses_newline, hText]

/- An empty last line is a newline at the end. -/
theorem ended_lines
    {parts : List String}
    (hLength : 2 ≤ parts.length)
    (hLast : parts.getLast? = some "") :
    Ended (lines parts) := by
  induction parts with
  | nil => simp at hLength
  | cons part rest ih =>
      rcases rest with _ | ⟨next, rest⟩
      · simp at hLength
      · have hText :
            lines (part :: next :: rest) =
              part ++ "\n" ++ lines (next :: rest) :=
          String.intercalate_cons_cons
        cases rest with
        | nil =>
            obtain rfl : next = "" := by simpa using hLast
            exact ⟨part, by simp [lines]⟩
        | cons after rest =>
            rcases ih (by simp) (by simpa using hLast) with
              ⟨front, hFront⟩
            rw [hText, hFront]
            exact ⟨part ++ "\n" ++ front,
              String.append_assoc.symm⟩

/- Texts that end with newlines are told one by one. -/
theorem uses_join
    {parts : List String}
    (h : ∀ part ∈ parts, Ended part)
    (rest : String) :
    uses (String.join parts ++ rest) =
      parts.flatMap uses ++ uses rest := by
  induction parts with
  | nil => simp
  | cons part parts ih =>
      rcases List.forall_mem_cons.mp h with ⟨hPart, hParts⟩
      rw [String.join_cons, String.append_assoc,
        uses_append_of_ended hPart, ih hParts,
        List.flatMap_cons, List.append_assoc]

------------------------------------------------------------
-- Texts Without Routines
------------------------------------------------------------

/- A text has no use in it, whatever is in front of it. -/
def Silent
    (text : String) : Prop :=
  ∀ before, usesFrom before text.toList = []

theorem Silent.uses_eq
    {text : String}
    (h : Silent text) :
    uses text = [] :=
  h []

theorem Silent.append
    {text text' : String}
    (h : Silent text)
    (h' : Silent text') :
    Silent (text ++ text') := by
  intro before
  rw [String.toList_append, usesFrom_append, h, h',
    List.append_nil]

theorem silent_of_not_mem
    {text : String}
    (h : '(' ∉ text.toList) :
    Silent text :=
  fun before => usesFrom_of_not_mem before h

/- A line that opens a block has no bracket at its end. -/
theorem Silent.opening
    {head : String}
    (h : Silent head) :
    Silent (Emit.opening head) := by
  have hSpace : Silent " " := fun _ => rfl
  have hBrace : Silent Text.leftBrace := fun _ => rfl
  exact (h.append hSpace).append hBrace

theorem silent_of_isWord
    {text : String}
    (h : IsWord text) :
    Silent text := by
  apply silent_of_not_mem
  intro hMem
  exact absurd (h _ hMem) (by decide)

theorem silent_lines
    {parts : List String}
    (h : ∀ part ∈ parts, Silent part) :
    Silent (lines parts) := by
  have hNewline : Silent "\n" := fun _ => rfl
  unfold lines
  induction parts with
  | nil => exact fun _ => rfl
  | cons part rest ih =>
      rcases List.forall_mem_cons.mp h with ⟨hPart, hRest⟩
      cases rest with
      | nil => simpa using hPart
      | cons next rest =>
          rw [String.intercalate_cons_cons]
          exact (hPart.append hNewline).append (ih hRest)

/- A name that is quoted has no bracket in it. -/
theorem silent_inspect
    {text : String}
    (h : IsWord text) :
    Silent (Text.inspect text) := by
  have hChar :
      ∀ c, isIdentifierPart c = true →
        '(' ∉ Text.inspectChar c := by
    apply forall_isIdentifierPart
    decide +kernel
  apply silent_of_not_mem
  rw [Text.inspect, String.toList_ofList]
  simp only [List.cons_append, List.mem_cons, List.mem_append,
    List.mem_flatMap, not_or, not_exists, not_and]
  exact ⟨by decide, fun c hc => hChar c (h c hc), by decide,
    by simp⟩

end Emit

end TagWire

------------------------------------------------------------
-- Words in Front of Brackets
------------------------------------------------------------

namespace TagWire

namespace Emit

theorem isRoutineName_writerName
    (ident : String) :
    IsRoutineName (Transfer.writerName ident).toList := by
  left
  rw [Transfer.writerName, String.toList_append]
  exact List.prefix_append _ _

theorem isRoutineName_readerName
    (ident : String) :
    IsRoutineName (Transfer.readerName ident).toList := by
  right
  rw [Transfer.readerName, String.toList_append]
  exact List.prefix_append _ _

theorem isWord_writerName
    {ident : String}
    (h : IsWord ident) :
    IsWord (Transfer.writerName ident) := by
  have hFront : IsWord "marshal_" := by decide
  exact isWord_append_iff.mpr ⟨hFront, h⟩

theorem isWord_readerName
    {ident : String}
    (h : IsWord ident) :
    IsWord (Transfer.readerName ident) := by
  have hFront : IsWord "unmarshal_" := by decide
  exact isWord_append_iff.mpr ⟨hFront, h⟩

/- A word in front of a bracket is one use at most. -/
theorem usesFrom_word
    {word rest : String}
    {before : List Char}
    (hWord : IsWord word)
    (hBefore : before.head?.any isIdentifierPart = false)
    (hRest : Silent rest) :
    usesFrom before (word ++ "(" ++ rest).toList =
      (useOf word.toList before).toList := by
  have hReverse :
      ∀ c ∈ word.toList.reverse, isIdentifierPart c = true :=
    fun c hc => hWord c (List.mem_reverse.mp hc)
  have hStop :
      before.takeWhile isIdentifierPart = [] ∧
        before.dropWhile isIdentifierPart = before := by
    cases before with
    | nil => exact ⟨rfl, rfl⟩
    | cons c before =>
        have hc : isIdentifierPart c = false := hBefore
        simp [hc]
  have hAt :
      useAt (word.toList.reverse ++ before) =
        useOf word.toList before := by
    rw [useAt, List.takeWhile_append_of_pos hReverse,
      List.dropWhile_append_of_pos hReverse, hStop.1, hStop.2,
      List.append_nil, List.reverse_reverse]
  rw [String.toList_append, String.toList_append,
    usesFrom_append, usesFrom_append,
    usesFrom_of_not_mem before (fun hMem =>
      absurd (hWord _ hMem) (by decide)),
    hRest, List.append_nil, List.nil_append]
  show (useAt _).toList ++ [] = _
  rw [hAt, List.append_nil]

/- A place where a routine that is named is called. -/
structure Opens
    (before : List Char) : Prop where
  apart : before.head?.any isIdentifierPart = false
  own : before.head? ≠ some ':'
  used : ¬ [' ', 'n', 'f'] <+: before

/- A routine is called there. -/
theorem usesFrom_routine
    {word rest : String}
    {before : List Char}
    (hWord : IsWord word)
    (hRoutine : IsRoutineName word.toList)
    (hBefore : Opens before)
    (hRest : Silent rest) :
    usesFrom before (word ++ "(" ++ rest).toList =
      [.call word] := by
  rw [usesFrom_word hWord hBefore.apart hRest, useOf,
    if_neg hBefore.used, if_neg hBefore.own, if_pos hRoutine,
    String.ofList_toList]
  rfl

/- No routine is called there under another name. -/
theorem usesFrom_foreign
    {word rest : String}
    {before : List Char}
    (hWord : IsWord word)
    (hForeign : ¬ IsRoutineName word.toList)
    (hBefore : Opens before)
    (hRest : Silent rest) :
    usesFrom before (word ++ "(" ++ rest).toList = [] := by
  rw [usesFrom_word hWord hBefore.apart hRest, useOf,
    if_neg hBefore.used, if_neg hBefore.own, if_neg hForeign]
  rfl

/- A function is defined behind the keyword. -/
theorem uses_function
    {word rest : String}
    (hWord : IsWord word)
    (hRest : Silent rest) :
    uses ("fn " ++ (word ++ "(" ++ rest)) =
      [.definition word] := by
  unfold uses
  rw [String.toList_append, usesFrom_append,
    usesFrom_word hWord rfl hRest, useOf,
    if_pos (by simp), String.ofList_toList]
  rfl

example :
    uses ("fn marshal_a(v: &B) " ++
        Text.inBraces "c::put(v); marshal_d(v)") =
      [.definition "marshal_a", .call "marshal_d"] := by
  cbv

/- A word that is qualified is of another module. -/
theorem silent_qualified
    {word : String}
    (h : IsWord word) :
    Silent ("::" ++ word ++ "(") := by
  intro before
  have hText :
      "::" ++ word ++ "(" = "::" ++ (word ++ "(" ++ "") := by
    rw [String.append_assoc, String.append_empty]
  have hColons : Silent "::" := silent_of_not_mem (by simp)
  have hBefore :
      "::".toList.reverse ++ before = ':' :: ':' :: before := rfl
  have hNone :
      useOf word.toList (':' :: ':' :: before) = none := by
    simp [useOf, List.cons_prefix_cons]
  rw [hText, String.toList_append, usesFrom_append, hColons,
    hBefore,
    usesFrom_word h rfl (fun _ => rfl),
    hNone]
  rfl

/- Every call in front of a text is one of the text itself. -/
theorem uses_behind
    {front : String}
    (h : Silent front)
    (text : String) :
    uses (front ++ text) =
      usesFrom front.toList.reverse text.toList := by
  unfold uses
  rw [String.toList_append, usesFrom_append, h,
    List.nil_append, List.append_nil]

theorem usesFrom_front
    {text rest : String}
    {before : List Char}
    (h : Silent rest) :
    usesFrom before (text ++ rest).toList =
      usesFrom before text.toList := by
  rw [String.toList_append, usesFrom_append, h, List.append_nil]

/- Behind a bracket a routine can be called. -/
theorem opens_bracket
    (before : List Char) :
    Opens ('(' :: before) := by
  refine ⟨rfl, ?_, ?_⟩
  · simp
  · simp [List.cons_prefix_cons]

/- So it can behind an equality sign. -/
theorem opens_binding
    (front : String) :
    Opens (front ++ " = ").toList.reverse := by
  have hBefore :
      (front ++ " = ").toList.reverse =
        ' ' :: '=' :: ' ' :: front.toList.reverse := by
    simp
  rw [hBefore]
  refine ⟨rfl, ?_, ?_⟩
  · simp
  · simp [List.cons_prefix_cons]

end Emit

end TagWire
