import TagWire.Proofs.Words

/-
  Snake case of ASCII names. It puts letters in lower case and
  underscores between words, and it does nothing else: without
  underscores, what is left is the name in lower case, and no
  underscore comes to stand first or beside another one.

  Main declarations:
    * `Names.separator`
    * `Names.snakeChars_cons`
    * `Names.filter_snakeChars`
    * `Names.underscores_cases`
    * `Names.exists_of_snakeChars_eq`
    * `Names.snakeCase_only_separates`
-/

------------------------------------------------------------
-- ASCII Letters
------------------------------------------------------------

namespace TagWire

open Text

theorem lowercase_of_isAscii
    {c : Char}
    (h : c.toNat < 128) :
    lowercase c = [c.toLower] :=
  if_pos h

/- Nothing is uppercase in lower case. -/
theorem isUppercase_toLower
    (c : Char)
    (h : c.toNat < 128) :
    isUppercase c.toLower = false := by
  revert c
  apply forall_isAscii
  decide +kernel

/- Only capitals have another form in lower case. -/
theorem toLower_of_not_isUppercase
    (c : Char)
    (h : c.toNat < 128) :
    isUppercase c = false → c.toLower = c := by
  revert c
  apply forall_isAscii
  decide +kernel

/- No letter becomes an underscore. -/
theorem toLower_eq_underscore_iff
    (c : Char)
    (h : c.toNat < 128) :
    c.toLower = '_' ↔ c = '_' := by
  revert c
  apply forall_isAscii
  decide +kernel

theorem not_isUppercase_underscore :
    isUppercase '_' = false := by
  decide

end TagWire

------------------------------------------------------------
-- Separators
------------------------------------------------------------

namespace TagWire

namespace Names

open Text

variable {previous next : Option Char}
variable {c : Char}
variable {chars rest : List Char}

/- What snake case puts in front of a character. -/
def separator
    (previous : Option Char)
    (c : Char)
    (next : Option Char) :
    List Char :=
  if isUppercase c ∧ startsWord previous next then
    ['_']
  else
    []

/-
  A character is put in lower case, behind what separates it
  from the one before.
-/
theorem snakeChars_cons
    (h : c.toNat < 128) :
    snakeChars previous (c :: rest) =
      separator previous c rest.head? ++
        c.toLower :: snakeChars (some c) rest := by
  rw [snakeChars, separator]
  cases hUpper : isUppercase c with
  | true => simp [lowercase_of_isAscii h]
  | false => simp [toLower_of_not_isUppercase c h hUpper]

/- Only a capital is separated from what is before it. -/
theorem separator_cases
    (previous : Option Char)
    (c : Char)
    (next : Option Char) :
    separator previous c next = [] ∨
      separator previous c next = ['_'] ∧
        isUppercase c = true := by
  unfold separator
  split
  · next h => exact Or.inr ⟨rfl, h.1⟩
  · exact Or.inl rfl

/- There is no separator at the start of a name. -/
theorem separator_none :
    separator none c next = [] := by
  simp [separator, startsWord]

/- An underscore ahead is as good as the end of a name. -/
theorem separator_head?_append :
    separator previous c (chars ++ '_' :: rest).head? =
      separator previous c chars.head? := by
  cases chars with
  | cons d chars => rfl
  | nil =>
      have hNot : isLowercase '_' = false := by
        decide
      cases previous with
      | none => rfl
      | some p => simp [separator, startsWord, hNot]

/- Behind an underscore a name starts anew. -/
theorem snakeChars_some_underscore :
    snakeChars (some '_') chars = snakeChars none chars := by
  cases chars with
  | nil => rfl
  | cons c rest =>
      rw [snakeChars, snakeChars]
      simp [startsWord, not_isUppercase_underscore]

end Names

end TagWire

------------------------------------------------------------
-- Characters in Snake Case
------------------------------------------------------------

namespace TagWire

namespace Names

open Text

variable {previous : Option Char}
variable {chars before behind : List Char}

/- No capital is left. -/
theorem not_isUppercase_of_mem_snakeChars
    (h : ∀ d ∈ chars, d.toNat < 128) :
    ∀ d ∈ snakeChars previous chars,
      isUppercase d = false := by
  induction chars generalizing previous with
  | nil => exact fun d hd => absurd hd List.not_mem_nil
  | cons c rest ih =>
      rcases List.forall_mem_cons.mp h with ⟨hFirst, hOthers⟩
      rw [snakeChars_cons hFirst]
      refine List.forall_mem_append.mpr
        ⟨?_, List.forall_mem_cons.mpr
          ⟨isUppercase_toLower c hFirst, ih hOthers⟩⟩
      rcases separator_cases previous c rest.head? with
        hNone | ⟨hOne, _⟩
      · rw [hNone]
        exact fun d hd => absurd hd List.not_mem_nil
      · rw [hOne]
        exact List.forall_mem_singleton.mpr
          not_isUppercase_underscore

/- Without capitals there is nothing to do. -/
theorem snakeChars_of_not_isUppercase
    (h : ∀ d ∈ chars, isUppercase d = false) :
    snakeChars previous chars = chars := by
  induction chars generalizing previous with
  | nil => rfl
  | cons c rest ih =>
      rcases List.forall_mem_cons.mp h with ⟨hFirst, hOthers⟩
      rw [snakeChars, hFirst, if_neg Bool.false_ne_true,
        ih hOthers]

/- The other characters are those of the name. -/
theorem filter_snakeChars
    (h : ∀ d ∈ chars, d.toNat < 128) :
    (snakeChars previous chars).filter (· ≠ '_') =
      (chars.map Char.toLower).filter (· ≠ '_') := by
  induction chars generalizing previous with
  | nil => rfl
  | cons c rest ih =>
      rcases List.forall_mem_cons.mp h with ⟨hFirst, hOthers⟩
      have hSeparator :
          (separator previous c rest.head?).filter (· ≠ '_') =
            [] := by
        rcases separator_cases previous c rest.head? with
          hNone | ⟨hOne, _⟩
        · rw [hNone]
          rfl
        · rw [hOne]
          rfl
      rw [snakeChars_cons hFirst, List.filter_append,
        hSeparator, List.nil_append, List.map_cons,
        List.filter_cons, List.filter_cons, ih hOthers]

/- An underscore that comes first is that of the name. -/
theorem exists_of_snakeChars_none_eq
    (h : ∀ d ∈ chars, d.toNat < 128)
    (hFirst : snakeChars none chars = '_' :: behind) :
    ∃ back,
      chars = '_' :: back ∧ snakeChars none back = behind := by
  cases chars with
  | nil => cases hFirst
  | cons c rest =>
      have hAscii := h c List.mem_cons_self
      rw [snakeChars_cons hAscii, separator_none,
        List.nil_append] at hFirst
      injection hFirst with hHead hTail
      obtain rfl :=
        (toLower_eq_underscore_iff c hAscii).mp hHead
      rw [snakeChars_some_underscore] at hTail
      exact ⟨rest, rfl, hTail⟩

/-
  Where two underscores can stand side by side: the first of
  them is the character itself, or both come from behind it. A
  separator is none of them. A capital stands behind it, and
  what stands before it is no underscore.
-/
theorem underscores_cases
    {c : Char}
    {next : Option Char}
    {tail : List Char}
    (h : c.toNat < 128)
    (hPair :
      separator previous c next ++ c.toLower :: tail =
        before ++ '_' :: '_' :: behind) :
    (c = '_' ∧ before = [] ∧ tail = '_' :: behind) ∨
      ∃ inner,
        before =
            separator previous c next ++ c.toLower :: inner ∧
          tail = inner ++ '_' :: '_' :: behind := by
  have hMark := toLower_eq_underscore_iff c h
  rcases separator_cases previous c next with
    hNone | ⟨hOne, hUpper⟩
  · rw [hNone, List.nil_append] at hPair
    rw [hNone]
    cases before with
    | nil =>
        injection hPair with hHead hTail
        exact Or.inl ⟨hMark.mp hHead, rfl, hTail⟩
    | cons d inner =>
        injection hPair with hHead hTail
        exact Or.inr ⟨inner, by rw [hHead]; rfl, hTail⟩
  · have hNot : c.toLower ≠ '_' := by
      intro hLower
      rw [hMark.mp hLower, not_isUppercase_underscore]
        at hUpper
      cases hUpper
    rw [hOne] at hPair ⊢
    match before with
    | [] =>
        injection hPair with _ hTail
        injection hTail with hHead _
        exact absurd hHead hNot
    | [d] =>
        injection hPair with _ hTail
        injection hTail with hHead _
        exact absurd hHead hNot
    | d :: d' :: inner =>
        injection hPair with hFirst hTail
        injection hTail with hHead hTail
        exact Or.inr ⟨inner, by rw [hFirst, hHead]; rfl, hTail⟩

/-
  Two underscores side by side are two of the name, and what
  is before and behind them comes from what is before and
  behind those. By induction on the name.
-/
theorem exists_of_snakeChars_eq
    (h : ∀ d ∈ chars, d.toNat < 128)
    (hPair :
      snakeChars previous chars =
        before ++ '_' :: '_' :: behind) :
    ∃ front back,
      chars = front ++ '_' :: '_' :: back ∧
        snakeChars previous front = before ∧
        snakeChars none back = behind := by
  induction chars generalizing previous before with
  | nil =>
      rw [snakeChars] at hPair
      simp at hPair
  | cons c rest ih =>
      rcases List.forall_mem_cons.mp h with ⟨hFirst, hOthers⟩
      rw [snakeChars_cons hFirst] at hPair
      rcases underscores_cases hFirst hPair with
        ⟨rfl, rfl, hTail⟩ | ⟨inner, rfl, hInner⟩
      · rw [snakeChars_some_underscore] at hTail
        rcases exists_of_snakeChars_none_eq hOthers hTail with
          ⟨back, rfl, hBack⟩
        exact ⟨[], back, rfl, rfl, hBack⟩
      · rcases ih hOthers hInner with
          ⟨front, back, rfl, hFront, hBack⟩
        refine ⟨c :: front, back, rfl, ?_, hBack⟩
        rw [snakeChars_cons hFirst, hFront,
          separator_head?_append]

end Names

end TagWire

------------------------------------------------------------
-- Names in Snake Case
------------------------------------------------------------

namespace TagWire

namespace Names

open Text

/- What is left of a text without its underscores. -/
def withoutUnderscores
    (text : String) :
    String :=
  String.ofList (text.toList.filter (· ≠ '_'))

/-
  Snake case of an ASCII name has no capitals. Apart from
  underscores it is the name in lower case. It starts with an
  underscore only if the name does, and where it has two side
  by side the name has them too, between parts whose snake
  case is what stands around them. Snake case of it is itself.
-/
theorem snakeCase_only_separates
    {name : String}
    (h : ∀ c ∈ name.toList, c.toNat < 128) :
    (∀ c ∈ (snakeCase name).toList, isUppercase c = false) ∧
    withoutUnderscores (snakeCase name) =
      withoutUnderscores name.toLower ∧
    ((snakeCase name).toList.head? = some '_' →
      name.toList.head? = some '_') ∧
    (∀ before behind,
      snakeCase name = before ++ "__" ++ behind →
        ∃ front back,
          name = front ++ "__" ++ back ∧
            snakeCase front = before ∧
            snakeCase back = behind) ∧
    snakeCase (snakeCase name) = snakeCase name := by
  have hChars :
      (snakeCase name).toList = snakeChars none name.toList :=
    String.toList_ofList
  have hSmall :
      ∀ c ∈ (snakeCase name).toList, isUppercase c = false := by
    rw [hChars]
    exact not_isUppercase_of_mem_snakeChars h
  refine ⟨hSmall, ?_, ?_, ?_, ?_⟩
  · have hLower :
        name.toLower.toList = name.toList.map Char.toLower :=
      String.toList_map
    unfold withoutUnderscores
    rw [hChars, filter_snakeChars h, hLower]
  · intro hFirst
    rw [hChars] at hFirst
    rcases List.head?_eq_some_iff.mp hFirst with
      ⟨behind, hBehind⟩
    rcases exists_of_snakeChars_none_eq h hBehind with
      ⟨back, hName, _⟩
    rw [hName]
    rfl
  · intro before behind hPair
    have hPairChars :
        snakeChars none name.toList =
          before.toList ++ '_' :: '_' :: behind.toList := by
      rw [← hChars, hPair]
      simp
    rcases exists_of_snakeChars_eq h hPairChars with
      ⟨front, back, hName, hFront, hBack⟩
    refine ⟨String.ofList front, String.ofList back, ?_, ?_, ?_⟩
    · apply String.toList_injective
      simp [hName]
    · unfold snakeCase
      rw [String.toList_ofList, hFront, String.ofList_toList]
    · unfold snakeCase
      rw [String.toList_ofList, hBack, String.ofList_toList]
  · calc
      snakeCase (snakeCase name)
          = String.ofList (snakeCase name).toList := by
            rw [snakeCase, snakeChars_of_not_isUppercase hSmall]
      _ = snakeCase name := String.ofList_toList

/- A run of capitals is one word, and underscores stay two. -/
theorem snakeCase_only_separates_server :
    (∀ c ∈ "HTTPServer__ID".toList, c.toNat < 128) ∧
    snakeCase "HTTPServer__ID" = "http_server__id" ∧
    ∃ front back,
      "HTTPServer__ID" = front ++ "__" ++ back ∧
        snakeCase front = "http_server" ∧
        snakeCase back = "id" := by
  have hChars :
      "HTTPServer__ID".toList =
        [
          'H', 'T', 'T', 'P', 'S', 'e', 'r', 'v', 'e', 'r', '_',
          '_', 'I', 'D'
        ] :=
    String.toList_ofList
  have hAscii :
      ∀ c ∈ "HTTPServer__ID".toList, c.toNat < 128 := by
    rw [hChars]
    simp
  have hSnake :
      snakeCase "HTTPServer__ID" = "http_server__id" := by
    unfold snakeCase
    rw [hChars]
    rfl
  rcases snakeCase_only_separates hAscii with
    ⟨_, _, _, hPairs, _⟩
  exact ⟨hAscii, hSnake, hPairs "http_server" "id" hSnake⟩

end Names

end TagWire
