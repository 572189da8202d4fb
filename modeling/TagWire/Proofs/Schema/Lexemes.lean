import TagWire.Proofs.Schema.Grammar

/-
  What splitting a text into tokens gives, said place by place
  and apart from how it is done: every mark and every longest
  run of other characters outside comments is one token.

  Main declarations:
    * `Source.placeAt`
    * `Source.Commented`
    * `Source.IsWord`
    * `Source.IsWordKind`
    * `Source.IsLexeme`
    * `Scanner.Reads`
    * `tokenize_covers`
-/

------------------------------------------------------------
-- Places
------------------------------------------------------------

namespace TagWire

namespace Source

/-
  The place of a character, by its number: the line counts the
  newlines before it, and the column counts the characters
  since the last of these.
-/
def placeAt
    (cs : List Char)
    (i : Nat) :
    Position :=
  ⟨1 + (cs.take i).count '\n',
    1 + ((cs.take i).reverse.takeWhile (· ≠ '\n')).length⟩

theorem placeAt_zero
    (cs : List Char) :
    placeAt cs 0 = .first := by
  simp [placeAt, Position.first]

theorem take_succ_of_getElem?
    {cs : List Char}
    {i : Nat}
    {c : Char}
    (h : cs[i]? = some c) :
    cs.take (i + 1) = cs.take i ++ [c] := by
  rw [List.take_add_one, h]
  rfl

theorem placeAt_succ
    {cs : List Char}
    {i : Nat}
    {c : Char}
    (h : cs[i]? = some c) :
    placeAt cs (i + 1) = (placeAt cs i).after c := by
  unfold placeAt Position.after
  rw [take_succ_of_getElem? h]
  split
  · next hNewline => simp [hNewline, Nat.add_assoc]
  · next hOther => simp [hOther, Nat.add_assoc]

end Source

end TagWire

------------------------------------------------------------
-- Comments
------------------------------------------------------------

namespace TagWire

namespace Source

/- A hash is before a character with no newline up to it. -/
def Commented
    (cs : List Char)
    (i : Nat) : Prop :=
  ∃ j ≤ i,
    cs[j]? = some '#' ∧
      ∀ k, j ≤ k → k ≤ i → cs[k]? ≠ some '\n'

/- The character before a place is in a comment. -/
def InsideComment
    (cs : List Char)
    (i : Nat) : Prop :=
  ∃ j, j + 1 = i ∧ Commented cs j

theorem insideComment_succ_iff
    {cs : List Char}
    {i : Nat} :
    InsideComment cs (i + 1) ↔ Commented cs i := by
  constructor
  · rintro ⟨j, hSucc, h⟩
    rwa [← Nat.succ.inj hSucc]
  · exact fun h => ⟨i, rfl, h⟩

/- A comment is begun by a hash and ended by a newline. -/
theorem commented_iff
    {cs : List Char}
    {i : Nat}
    {c : Char}
    (h : cs[i]? = some c) :
    Commented cs i ↔
      c ≠ '\n' ∧ (c = '#' ∨ InsideComment cs i) := by
  constructor
  · rintro ⟨j, hLe, hHash, hNone⟩
    have hSame := hNone i hLe (Nat.le_refl i)
    rw [h] at hSame
    refine ⟨fun hc => hSame (congrArg some hc), ?_⟩
    rcases Nat.eq_or_lt_of_le hLe with rfl | hLt
    · exact .inl (Option.some.inj (h.symm.trans hHash))
    · refine .inr ⟨i - 1, by omega, j, by omega, hHash, ?_⟩
      exact fun k hj hk => hNone k hj (by omega)
  · rintro ⟨hNewline, hHash | ⟨j, rfl, l, hLe, hHash, hNone⟩⟩
    · refine ⟨i, Nat.le_refl i, hHash ▸ h, fun k hj hk => ?_⟩
      rw [Nat.le_antisymm hk hj, h]
      exact fun hc => hNewline (Option.some.inj hc)
    · refine ⟨l, by omega, hHash, fun k hj hk => ?_⟩
      rcases Nat.eq_or_lt_of_le hk with rfl | hLt
      · rw [h]
        exact fun hc => hNewline (Option.some.inj hc)
      · exact hNone k hj (by omega)

end Source

end TagWire

------------------------------------------------------------
-- Lexemes
------------------------------------------------------------

namespace TagWire

namespace Source

open Text

/- A character of a word: no comment, no blank and no mark. -/
def InWord
    (cs : List Char)
    (i : Nat) : Prop :=
  ∃ c,
    cs[i]? = some c ∧ ¬ Commented cs i ∧ isBlank c = false ∧
      ∀ m : Mark, c ≠ m.char

/- A longest run of such characters, up to a second place. -/
structure IsWord
    (cs : List Char)
    (i j : Nat) : Prop where
  nonempty : i < j
  inner : ∀ k, i ≤ k → k < j → InWord cs k
  left : ∀ k, k + 1 = i → ¬ InWord cs k
  right : ¬ InWord cs j

/- The characters from one place up to another. -/
def slice
    (cs : List Char)
    (i j : Nat) :
    List Char :=
  (cs.take j).drop i

def IsBuiltin
    (text : String) : Prop :=
  (∃ kind : ScalarKind, text = kind.name) ∨
    text = "list" ∨ text = "map"

/- Decimal digits, perhaps behind a sign. -/
def IsNumber
    (text : String) : Prop :=
  ∃ sign digits,
    text.toList = sign ++ digits ∧
      (sign = [] ∨ sign = ['+'] ∨ sign = ['-']) ∧
      digits ≠ [] ∧ ∀ c ∈ digits, Grammar.IsDigit c

/-
  What kind of token a word is. A word that could be of two
  kinds is of the first of them.
-/
inductive IsWordKind
    (text : String) :
    TokenKind → Prop
| keyword
    {k : Keyword}
    (hKeyword : text = k.text) :
    IsWordKind text (.keyword k)
| builtin
    (hNoKeyword : ∀ k : Keyword, text ≠ k.text)
    (hBuiltin : IsBuiltin text) :
    IsWordKind text .builtin
| number
    (hNoKeyword : ∀ k : Keyword, text ≠ k.text)
    (hNoBuiltin : ¬ IsBuiltin text)
    (hNumber : IsNumber text) :
    IsWordKind text .number
| identifier
    (hNoKeyword : ∀ k : Keyword, text ≠ k.text)
    (hNoBuiltin : ¬ IsBuiltin text)
    (hNoNumber : ¬ IsNumber text) :
    IsWordKind text .identifier

/- A token of a text, which starts at some character. -/
inductive IsLexeme
    (cs : List Char)
    (i : Nat) :
    Token → Prop
| mark
    {m : Mark}
    (hMark : cs[i]? = some m.char)
    (hOutside : ¬ Commented cs i) :
    IsLexeme cs i ⟨.mark m, m.char.toString, placeAt cs i⟩
| word
    {j : Nat}
    {kind : TokenKind}
    (hWord : IsWord cs i j)
    (hKind : IsWordKind (String.ofList (slice cs i j)) kind) :
    IsLexeme cs i
      ⟨kind, String.ofList (slice cs i j), placeAt cs i⟩

/- A run of characters has one end. -/
theorem IsWord.end_unique
    {cs : List Char}
    {i j j' : Nat}
    (h : IsWord cs i j)
    (h' : IsWord cs i j') :
    j = j' := by
  rcases Nat.lt_trichotomy j j' with hLt | hEq | hGt
  · have hInner :=
      h'.inner j (Nat.le_of_lt h.nonempty) hLt
    exact absurd hInner h.right
  · exact hEq
  · have hInner :=
      h.inner j' (Nat.le_of_lt h'.nonempty) hGt
    exact absurd hInner h'.right

/- Only the end of a text is a token of that kind. -/
theorem IsLexeme.kind_ne_endOfText
    {cs : List Char}
    {i : Nat}
    {t : Token}
    (h : IsLexeme cs i t) :
    t.kind ≠ .endOfText := by
  cases h with
  | mark => simp
  | word _ hKind => cases hKind <;> simp

/- A token starts at a character of the text. -/
theorem IsLexeme.lt_length
    {cs : List Char}
    {i : Nat}
    {t : Token}
    (h : IsLexeme cs i t) :
    i < cs.length := by
  cases h with
  | mark hMark _ => exact (List.getElem?_eq_some_iff.mp hMark).1
  | word hRun _ =>
      rcases hRun.inner i (Nat.le_refl i) hRun.nonempty with
        ⟨c, hChar, _⟩
      exact (List.getElem?_eq_some_iff.mp hChar).1

theorem slice_self
    (cs : List Char)
    (i : Nat) :
    slice cs i i = [] := by
  simp [slice]

/- A run of characters goes on with the next one. -/
theorem slice_succ
    {cs : List Char}
    {i j : Nat}
    {c : Char}
    (h : cs[j]? = some c)
    (hLe : i ≤ j) :
    slice cs i (j + 1) = slice cs i j ++ [c] := by
  have hLength : j < cs.length := by
    exact (List.getElem?_eq_some_iff.mp h).1
  unfold slice
  rw [take_succ_of_getElem? h, List.drop_append_of_le_length]
  simp
  omega

end Source

end TagWire

------------------------------------------------------------
-- Kinds of Words
------------------------------------------------------------

namespace TagWire

namespace Source

/- Whether a word spells a keyword is looked up in a table. -/
theorem find?_keyword_eq_some_iff
    {text : String}
    {k : Keyword} :
    Keyword.all.find? (fun k => k.text == text) = some k ↔
      text = k.text := by
  constructor
  · intro h
    have hFound := List.find?_some h
    exact (eq_of_beq hFound).symm
  · rintro rfl
    cases k <;> decide

theorem find?_keyword_eq_none_iff
    {text : String} :
    Keyword.all.find? (fun k => k.text == text) = none ↔
      ∀ k : Keyword, text ≠ k.text := by
  constructor
  · intro h k hText
    rw [find?_keyword_eq_some_iff.mpr hText] at h
    cases h
  · intro h
    cases hFind :
        Keyword.all.find? (fun k => k.text == text) with
    | none => rfl
    | some k =>
        exact absurd (find?_keyword_eq_some_iff.mp hFind) (h k)

theorem ofChar?_eq_some_iff
    {c : Char}
    {m : Mark} :
    Mark.ofChar? c = some m ↔ c = m.char := by
  constructor
  · intro h
    unfold Mark.ofChar? at h
    have hFound := List.find?_some h
    exact (eq_of_beq hFound).symm
  · rintro rfl
    cases m <;> decide

theorem ofChar?_eq_none_iff
    {c : Char} :
    Mark.ofChar? c = none ↔ ∀ m : Mark, c ≠ m.char := by
  constructor
  · intro h m hChar
    rw [ofChar?_eq_some_iff.mpr hChar] at h
    cases h
  · intro h
    cases hFind : Mark.ofChar? c with
    | none => rfl
    | some m => exact absurd (ofChar?_eq_some_iff.mp hFind) (h m)

theorem char_injective
    {m m' : Mark}
    (h : m.char = m'.char) :
    m = m' := by
  have hFind := ofChar?_eq_some_iff.mpr h
  rw [ofChar?_eq_some_iff.mpr rfl] at hFind
  exact Option.some.inj hFind

theorem mem_builtinNames_iff
    {text : String} :
    text ∈ builtinNames ↔ IsBuiltin text := by
  unfold builtinNames IsBuiltin
  simp only [List.mem_append, List.mem_map, List.mem_cons,
    List.not_mem_nil, or_false]
  constructor
  · rintro (⟨kind, _, rfl⟩ | h)
    · exact .inl ⟨kind, rfl⟩
    · exact .inr h
  · rintro (⟨kind, rfl⟩ | h)
    · exact .inl ⟨kind, kind.mem_all, rfl⟩
    · exact .inr h

theorem not_digits_cons
    {c : Char}
    {cs : List Char}
    (h : ∀ d ∈ c :: cs, Grammar.IsDigit d) :
    c ≠ '+' ∧ c ≠ '-' := by
  have hDigit := h c List.mem_cons_self
  constructor
  · rintro rfl
    exact absurd hDigit.1 (by decide)
  · rintro rfl
    exact absurd hDigit.1 (by decide)

/- The check of numbers accepts digits behind a sign. -/
theorem isNumber_iff
    {text : String} :
    isNumber text.toList = true ↔ IsNumber text := by
  unfold IsNumber
  constructor
  · intro h
    unfold isNumber at h
    split at h
    · next cs hText =>
        exact ⟨['+'], cs, hText, .inr (.inl rfl),
          Grammar.isDigits_iff.mp h⟩
    · next cs hText =>
        exact ⟨['-'], cs, hText, .inr (.inr rfl),
          Grammar.isDigits_iff.mp h⟩
    · exact ⟨[], text.toList, rfl, .inl rfl,
        Grammar.isDigits_iff.mp h⟩
  · rintro ⟨sign, digits, hText, hSign, hDigits⟩
    have hIs := Grammar.isDigits_iff.mpr hDigits
    rw [hText]
    rcases hSign with rfl | rfl | rfl
    · cases digits with
      | nil => exact absurd rfl hDigits.1
      | cons c cs =>
          rcases not_digits_cons hDigits.2 with ⟨hPlus, hMinus⟩
          simpa [isNumber, hPlus, hMinus] using hIs
    · exact hIs
    · exact hIs

/- The kind of a word is the one that it is said to be. -/
theorem isWordKind_iff
    {text : String}
    {kind : TokenKind} :
    IsWordKind text kind ↔ kind = wordKind text := by
  unfold wordKind
  constructor
  · intro h
    cases h with
    | keyword hKeyword =>
        rw [find?_keyword_eq_some_iff.mpr hKeyword]
    | builtin hNoKeyword hBuiltin =>
        rw [find?_keyword_eq_none_iff.mpr hNoKeyword]
        simp [mem_builtinNames_iff, hBuiltin]
    | number hNoKeyword hNoBuiltin hNumber =>
        rw [find?_keyword_eq_none_iff.mpr hNoKeyword]
        simp [mem_builtinNames_iff, isNumber_iff, hNoBuiltin,
          hNumber]
    | identifier hNoKeyword hNoBuiltin hNoNumber =>
        rw [find?_keyword_eq_none_iff.mpr hNoKeyword]
        simp [mem_builtinNames_iff, isNumber_iff, hNoBuiltin,
          hNoNumber]
  · rintro rfl
    split
    · next k hFind =>
        exact .keyword (find?_keyword_eq_some_iff.mp hFind)
    · next hFind =>
        have hNoKeyword := find?_keyword_eq_none_iff.mp hFind
        split
        · next hMem =>
            exact .builtin hNoKeyword
              (mem_builtinNames_iff.mp hMem)
        · next hMem =>
            have hNoBuiltin := mt mem_builtinNames_iff.mpr hMem
            split
            · next hIs =>
                exact .number hNoKeyword hNoBuiltin
                  (isNumber_iff.mp hIs)
            · next hIs =>
                exact .identifier hNoKeyword hNoBuiltin
                  (mt isNumber_iff.mpr hIs)

end Source

end TagWire

------------------------------------------------------------
-- Lists of Lexemes
------------------------------------------------------------

namespace TagWire

namespace Source

/-
  All tokens that start from one place up to another, each
  once and in order, with the numbers of their first character.
-/
structure Lists
    (cs : List Char)
    (a b : Nat)
    (items : List (Nat × Token)) : Prop where
  ascending : items.Pairwise (fun x y => x.1 < y.1)
  mem_iff :
    ∀ i t,
      (i, t) ∈ items ↔ IsLexeme cs i t ∧ a ≤ i ∧ i < b

theorem lists_nil
    {cs : List Char}
    {a b : Nat}
    (h : ∀ i t, a ≤ i → i < b → ¬ IsLexeme cs i t) :
    Lists cs a b [] where
  ascending := .nil
  mem_iff := by
    intro i t
    constructor
    · intro hMem
      cases hMem
    · rintro ⟨hLexeme, ha, hb⟩
      exact absurd hLexeme (h i t ha hb)

theorem lists_singleton
    {cs : List Char}
    {a b i : Nat}
    {t : Token}
    (ha : a ≤ i)
    (hb : i < b)
    (hLexeme : IsLexeme cs i t)
    (hUnique :
      ∀ j u, a ≤ j → j < b → IsLexeme cs j u → j = i ∧ u = t) :
    Lists cs a b [(i, t)] where
  ascending := List.pairwise_singleton _ _
  mem_iff := by
    intro j u
    rw [List.mem_singleton, Prod.mk.injEq]
    constructor
    · rintro ⟨rfl, rfl⟩
      exact ⟨hLexeme, ha, hb⟩
    · rintro ⟨hOther, hj, hj'⟩
      exact hUnique j u hj hj' hOther

theorem Lists.append
    {cs : List Char}
    {a b c : Nat}
    {xs ys : List (Nat × Token)}
    (h : Lists cs a b xs)
    (h' : Lists cs b c ys)
    (hab : a ≤ b)
    (hbc : b ≤ c) :
    Lists cs a c (xs ++ ys) where
  ascending := by
    refine List.pairwise_append.mpr
      ⟨h.ascending, h'.ascending, ?_⟩
    rintro ⟨i, t⟩ hx ⟨j, u⟩ hy
    have hLeft := ((h.mem_iff i t).mp hx).2.2
    have hRight := ((h'.mem_iff j u).mp hy).2.1
    exact Nat.lt_of_lt_of_le hLeft hRight
  mem_iff := by
    intro i t
    rw [List.mem_append, h.mem_iff, h'.mem_iff]
    constructor
    · rintro (⟨hLexeme, ha, hb⟩ | ⟨hLexeme, hb, hc⟩)
      · exact ⟨hLexeme, ha, Nat.lt_of_lt_of_le hb hbc⟩
      · exact ⟨hLexeme, Nat.le_trans hab hb, hc⟩
    · rintro ⟨hLexeme, ha, hc⟩
      rcases Nat.lt_or_ge i b with hb | hb
      · exact .inl ⟨hLexeme, ha, hb⟩
      · exact .inr ⟨hLexeme, hb, hc⟩

/- A token starts at a mark or in a word. -/
theorem not_isLexeme
    {cs : List Char}
    {i : Nat}
    {t : Token}
    (hWord : ¬ InWord cs i)
    (hMark :
      ∀ m : Mark, cs[i]? = some m.char → Commented cs i) :
    ¬ IsLexeme cs i t := by
  intro h
  cases h with
  | mark hChar hOutside => exact hOutside (hMark _ hChar)
  | word hRun _ =>
      exact hWord (hRun.inner i (Nat.le_refl i) hRun.nonempty)

end Source

end TagWire

------------------------------------------------------------
-- Scanning
------------------------------------------------------------

namespace TagWire

namespace Scanner

open Text Source

/-
  What a scanner knows before a character of a text: the place
  of that character, whether it is inside a comment, and the
  word that began at some place and has not ended yet.
-/
structure Reads
    (cs : List Char)
    (start i : Nat)
    (s : Scanner) : Prop where
  position : s.position = placeAt cs i
  comment : s.inComment = true ↔ InsideComment cs i
  begun : start ≤ i
  inner : ∀ k, start ≤ k → k < i → InWord cs k
  left : ∀ k, k + 1 = start → ¬ InWord cs k
  word : s.word = slice cs start i
  wordStart : start < i → s.wordStart = placeAt cs start

theorem reads_initial
    (cs : List Char) :
    Reads cs 0 0 initial where
  position := (placeAt_zero cs).symm
  comment := by
    constructor
    · intro h
      cases h
    · rintro ⟨j, hSucc, _⟩
      cases hSucc
  begun := Nat.le_refl 0
  inner := fun k _ hLt => absurd hLt (Nat.not_lt_zero k)
  left := fun k hSucc => absurd hSucc (Nat.succ_ne_zero k)
  word := (slice_self cs 0).symm
  wordStart := fun h => absurd h (Nat.lt_irrefl 0)

/- Behind a character that is in no word, none has begun. -/
theorem reads_fresh
    {cs : List Char}
    {i : Nat}
    {c : Char}
    {s : Scanner}
    (hChar : cs[i]? = some c)
    (hOutside : ¬ InWord cs i)
    (hPosition : s.position = (placeAt cs i).after c)
    (hWord : s.word = [])
    (hComment : s.inComment = true ↔ Commented cs i) :
    Reads cs (i + 1) (i + 1) s where
  position := by rw [hPosition, placeAt_succ hChar]
  comment := by rw [hComment, insideComment_succ_iff]
  begun := Nat.le_refl _
  inner := fun k hLe hLt => absurd hLt (Nat.not_lt.mpr hLe)
  left := fun k hSucc => Nat.succ.inj hSucc ▸ hOutside
  word := by rw [hWord, slice_self]
  wordStart := fun h => absurd h (Nat.lt_irrefl _)

section Known

variable {cs : List Char}
variable {start i : Nat}
variable {s : Scanner}

/- The unfinished word is empty if it would begin here. -/
theorem Reads.word_isEmpty_iff
    (h : Reads cs start i s) :
    s.word.isEmpty = true ↔ start = i := by
  rw [h.word, List.isEmpty_iff]
  constructor
  · intro hNil
    by_contra hne
    have hLt : start < i := Nat.lt_of_le_of_ne h.begun hne
    rcases h.inner (i - 1) (by omega) (by omega) with
      ⟨c, hChar, _⟩
    have hLength := (List.getElem?_eq_some_iff.mp hChar).1
    have hZero := congrArg List.length hNil
    simp [slice] at hZero
    omega
  · rintro rfl
    exact slice_self cs start

/- No word is unfinished inside a comment. -/
theorem Reads.start_eq
    (h : Reads cs start i s)
    (hComment : InsideComment cs i) :
    start = i := by
  by_contra hne
  have hLt : start < i := Nat.lt_of_le_of_ne h.begun hne
  rcases hComment with ⟨j, rfl, hCommented⟩
  rcases h.inner j (by omega) (by omega) with
    ⟨_, _, hOutside, _⟩
  exact hOutside hCommented

/- The unfinished word is a token if it goes on no further. -/
theorem Reads.exists_lists_flush
    (h : Reads cs start i s)
    (hRight : ¬ InWord cs i) :
    ∃ items,
      items.map Prod.snd = s.flush ∧
        Lists cs start i items := by
  unfold flush
  split
  · next hEmpty =>
      obtain rfl := h.word_isEmpty_iff.mp hEmpty
      refine ⟨[], rfl, lists_nil fun j t hLe hLt => ?_⟩
      exact absurd hLt (Nat.not_lt.mpr hLe)
  · next hFull =>
      have hne : start ≠ i :=
        fun hEq => hFull (h.word_isEmpty_iff.mpr hEq)
      have hLt := Nat.lt_of_le_of_ne h.begun hne
      have hRun : IsWord cs start i :=
        ⟨hLt, h.inner, h.left, hRight⟩
      refine ⟨[(start, wordToken s.word s.wordStart)], rfl, ?_⟩
      unfold wordToken
      rw [h.word, h.wordStart hLt]
      apply lists_singleton (Nat.le_refl start) hLt
      · exact .word hRun (isWordKind_iff.mpr rfl)
      · intro j u hLe hj hLexeme
        cases hLexeme with
        | mark hMark _ =>
            rcases h.inner j hLe hj with ⟨c, hChar, _, _, hNone⟩
            rw [hMark, Option.some.injEq] at hChar
            exact absurd hChar.symm (hNone _)
        | word hRun' hKind =>
            -- A run that began later would not be a longest one.
            have hStart : j = start := by
              by_contra hOther
              refine hRun'.left (j - 1) (by omega) ?_
              exact h.inner _ (by omega) (by omega)
            subst hStart
            obtain rfl := hRun.end_unique hRun'
            rw [isWordKind_iff.mp hKind]
            exact ⟨rfl, rfl⟩

/-
  Some tokens are all that start before what is then known to
  be unfinished, from some place on.
-/
def Continues
    (cs : List Char)
    (start i : Nat)
    (tokens : List Token)
    (s : Scanner) : Prop :=
  ∃ start' items,
    start ≤ start' ∧ items.map Prod.snd = tokens ∧
      Lists cs start start' items ∧ Reads cs start' i s

/- A character that is in no word ends the unfinished one. -/
theorem Reads.continues_outside
    (h : Reads cs start i s)
    {c : Char}
    {items : List (Nat × Token)}
    {s' : Scanner}
    (hChar : cs[i]? = some c)
    (hOutside : ¬ InWord cs i)
    (hItems : Lists cs i (i + 1) items)
    (hPosition : s'.position = s.position.after c)
    (hWord : s'.word = [])
    (hComment : s'.inComment = true ↔ Commented cs i) :
    Continues cs start (i + 1)
      (s.flush ++ items.map Prod.snd) s' := by
  rcases h.exists_lists_flush hOutside with
    ⟨before, hFlush, hBefore⟩
  refine ⟨i + 1, before ++ items, Nat.le_succ_of_le h.begun,
    by rw [List.map_append, hFlush],
    hBefore.append hItems h.begun (Nat.le_succ i), ?_⟩
  rw [h.position] at hPosition
  exact reads_fresh hChar hOutside hPosition hWord hComment

/- A character that is in no token adds none. -/
theorem Reads.continues_between
    (h : Reads cs start i s)
    {c : Char}
    {s' : Scanner}
    (hChar : cs[i]? = some c)
    (hOutside : ¬ InWord cs i)
    (hMark : ∀ m : Mark, c = m.char → Commented cs i)
    (hPosition : s'.position = s.position.after c)
    (hWord : s'.word = [])
    (hComment : s'.inComment = true ↔ Commented cs i) :
    Continues cs start (i + 1) s.flush s' := by
  have hNone : Lists cs i (i + 1) [] := by
    refine lists_nil fun j t hLe hLt => ?_
    obtain rfl := Nat.le_antisymm (Nat.le_of_lt_succ hLt) hLe
    apply not_isLexeme hOutside
    intro m hSame
    exact hMark m (Option.some.inj (hChar.symm.trans hSame))
  have hNext := h.continues_outside hChar hOutside hNone
    hPosition hWord hComment
  rwa [List.map_nil, List.append_nil] at hNext

/- A mark outside comments is a token of its own. -/
theorem Reads.continues_mark
    (h : Reads cs start i s)
    {m : Mark}
    {s' : Scanner}
    (hChar : cs[i]? = some m.char)
    (hOut : ¬ Commented cs i)
    (hPosition : s'.position = s.position.after m.char)
    (hWord : s'.word = [])
    (hComment : s'.inComment = true ↔ Commented cs i) :
    Continues cs start (i + 1)
      (s.flush ++ [markToken m s.position]) s' := by
  have hOutside : ¬ InWord cs i := by
    rintro ⟨d, hSame, _, _, hNone⟩
    rw [hChar, Option.some.injEq] at hSame
    exact hNone m hSame.symm
  have hOne :
      Lists cs i (i + 1) [(i, markToken m s.position)] := by
    rw [h.position]
    apply lists_singleton (Nat.le_refl i) (Nat.lt_succ_self i)
    · exact .mark hChar hOut
    · intro j t hLe hLt hLexeme
      obtain rfl := Nat.le_antisymm (Nat.le_of_lt_succ hLt) hLe
      cases hLexeme with
      | mark hSame _ =>
          rw [hChar, Option.some.injEq] at hSame
          rw [char_injective hSame]
          exact ⟨rfl, rfl⟩
      | word hRun _ =>
          exact absurd (hRun.inner j hLe hRun.nonempty) hOutside
  exact h.continues_outside hChar hOutside hOne hPosition
    hWord hComment

/- A character of a word begins one, or goes on with it. -/
theorem Reads.continues_inside
    (h : Reads cs start i s)
    {c : Char}
    (hChar : cs[i]? = some c)
    (hInside : InWord cs i) :
    Continues cs start (i + 1) []
      ⟨s.position.after c, s.word ++ [c],
        if s.word.isEmpty then s.position else s.wordStart,
        false⟩ := by
  have hLists : Lists cs start start [] :=
    lists_nil fun j t hLe hLt =>
      absurd hLt (Nat.not_lt.mpr hLe)
  refine ⟨start, [], Nat.le_refl start, rfl, hLists, ?_⟩
  constructor
  · rw [h.position, placeAt_succ hChar]
  · rcases hInside with ⟨_, _, hOutside, _⟩
    rw [insideComment_succ_iff]
    simp [hOutside]
  · exact Nat.le_succ_of_le h.begun
  · intro k hLe hLt
    rcases Nat.eq_or_lt_of_le (Nat.le_of_lt_succ hLt) with
      rfl | hBefore
    · exact hInside
    · exact h.inner k hLe hBefore
  · exact h.left
  · rw [slice_succ hChar h.begun, h.word]
  · intro _
    split
    · next hEmpty =>
        rw [h.word_isEmpty_iff.mp hEmpty, h.position]
    · next hFull =>
        apply h.wordStart
        refine Nat.lt_of_le_of_ne h.begun fun hEq => ?_
        exact hFull (h.word_isEmpty_iff.mpr hEq)

/- What reading a character gives continues what is known. -/
theorem Reads.step
    (h : Reads cs start i s)
    {c : Char}
    (hChar : cs[i]? = some c) :
    Continues cs start (i + 1) (s.step c).1 (s.step c).2 := by
  have hCommented := commented_iff hChar
  rw [← h.comment] at hCommented
  have hIgnored : Commented cs i → ¬ InWord cs i :=
    fun hIn ⟨_, _, hOutside, _⟩ => hOutside hIn
  unfold Scanner.step
  simp only
  split
  · next hOpen =>
      simp only [Bool.and_eq_true, decide_eq_true_eq] at hOpen
      -- Inside a comment no word is left to flush.
      have hIn := hCommented.mpr ⟨hOpen.2, .inr hOpen.1⟩
      have hStart := h.start_eq (h.comment.mp hOpen.1)
      have hEmpty := h.word_isEmpty_iff.mpr hStart
      have hFlush : s.flush = [] := if_pos hEmpty
      rw [← hFlush]
      apply h.continues_between hChar (hIgnored hIn)
      · exact fun _ _ => hIn
      · rfl
      · exact List.isEmpty_iff.mp hEmpty
      · simp [hOpen.1, hIn]
  · next hClosed =>
      simp only [Bool.and_eq_true, decide_eq_true_eq,
        not_and, not_not] at hClosed
      split
      · next hHash =>
          have hIn := hCommented.mpr ⟨by simp [hHash], .inl hHash⟩
          apply h.continues_between hChar (hIgnored hIn) _
            rfl rfl (by simp [hIn])
          exact fun _ _ => hIn
      · next hNoHash =>
          -- From here on the character stands for itself.
          have hOut : ¬ Commented cs i := by
            rw [hCommented]
            rintro ⟨hNewline, hHash | hOpen⟩
            · exact hNoHash hHash
            · exact hNewline (hClosed hOpen)
          split
          · next m hMark =>
              obtain rfl := ofChar?_eq_some_iff.mp hMark
              exact h.continues_mark hChar hOut rfl rfl
                (by simp [hOut])
          · next hNoMark =>
              have hNone := ofChar?_eq_none_iff.mp hNoMark
              split
              · next hBlank =>
                  have hOutside : ¬ InWord cs i := by
                    rintro ⟨d, hSame, _, hSolid, _⟩
                    rw [hChar, Option.some.injEq] at hSame
                    rw [← hSame, hBlank] at hSolid
                    cases hSolid
                  apply h.continues_between hChar hOutside _
                    rfl rfl (by simp [hOut])
                  exact fun m hSame => absurd hSame (hNone m)
              · next hSolid =>
                  have hNext := h.continues_inside hChar
                    ⟨c, hChar, hOut, by simpa using hSolid, hNone⟩
                  split
                  · next hEmpty =>
                      simpa [hEmpty, List.isEmpty_iff.mp hEmpty]
                        using hNext
                  · next hFull => simpa [hFull] using hNext

/- Scanning the rest of a text gives its tokens, and the end. -/
theorem Reads.run
    {rest : List Char}
    (h : Reads cs start i s)
    (hBound : i ≤ cs.length)
    (hRest : cs.drop i = rest) :
    ∃ items,
      s.run rest =
        items.map Prod.snd ++ [endToken (placeAt cs cs.length)] ∧
      Lists cs start cs.length items := by
  induction rest generalizing start i s with
  | nil =>
      obtain rfl :=
        Nat.le_antisymm hBound (List.drop_eq_nil_iff.mp hRest)
      have hOutside : ¬ InWord cs cs.length := by
        rintro ⟨c, hChar, _⟩
        simp at hChar
      rcases h.exists_lists_flush hOutside with
        ⟨items, hFlush, hLists⟩
      refine ⟨items, ?_, hLists⟩
      rw [Scanner.run, hFlush, h.position]
  | cons c rest ih =>
      have hChar : cs[i]? = some c := by
        rw [← List.head?_drop, hRest]
        rfl
      have hTail : cs.drop (i + 1) = rest := by
        rw [← List.tail_drop, hRest]
        rfl
      have hNext := (List.getElem?_eq_some_iff.mp hChar).1
      rcases h.step hChar with
        ⟨start', before, hLe, hTokens, hBefore, hReads⟩
      rcases ih hReads hNext hTail with ⟨after, hRun, hAfter⟩
      refine ⟨before ++ after, ?_, ?_⟩
      · calc
          s.run (c :: rest)
            = (s.step c).1 ++ (s.step c).2.run rest := rfl
          _ = (before ++ after).map Prod.snd ++
                [endToken (placeAt cs cs.length)] := by
              rw [hRun, ← hTokens]
              simp
      · exact hBefore.append hAfter hLe
          (Nat.le_trans hReads.begun hNext)

end Known

end Scanner

end TagWire

------------------------------------------------------------
-- Tokens of a Text
------------------------------------------------------------

namespace TagWire

open Source

/-
  The tokens of a text are its lexemes in the order of their
  first characters, each once, and the end behind the last
  character.
-/
theorem tokenize_covers
    (text : String) :
    ∃ items : List (Nat × Token),
      tokenize text =
        items.map Prod.snd ++
          [endToken (placeAt text.toList text.toList.length)] ∧
      items.Pairwise (fun x y => x.1 < y.1) ∧
      ∀ i t, (i, t) ∈ items ↔ IsLexeme text.toList i t := by
  rcases (Scanner.reads_initial text.toList).run
      (Nat.zero_le _) rfl with
    ⟨items, hRun, hLists⟩
  refine ⟨items, hRun, hLists.ascending, fun i t => ?_⟩
  rw [hLists.mem_iff]
  constructor
  · exact fun h => h.1
  · exact fun h => ⟨h, Nat.zero_le i, h.lt_length⟩

end TagWire
