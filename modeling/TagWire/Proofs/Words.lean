import TagWire.Names
import TagWire.Proofs.Schema.Grammar

/-
  Texts that consist of the characters of identifiers. The
  names of types, fields and scalars are such words, and so
  are the names that are made of them for generated code.

  Main declarations:
    * `IsWord`
    * `isWord_firstUpper`
    * `isWord_snakeCase`
    * `isWord_escape`
    * `isWord_toString`
    * `toString_injective`
-/

------------------------------------------------------------
-- Characters
------------------------------------------------------------

namespace TagWire

open Grammar Text

theorem toNat_lt_of_isIdentifierPart
    {c : Char}
    (h : isIdentifierPart c = true) :
    c.toNat < 128 := by
  have hBelow {d : Char} (hLe : c ≤ d) : c.toNat ≤ d.toNat := hLe
  rcases isIdentifierPart_iff.mp h with
    (⟨_, hLe⟩ | ⟨_, hLe⟩ | rfl) | ⟨_, hLe⟩
  · exact Nat.lt_of_le_of_lt (hBelow hLe) (by decide)
  · exact Nat.lt_of_le_of_lt (hBelow hLe) (by decide)
  · decide
  · exact Nat.lt_of_le_of_lt (hBelow hLe) (by decide)

/- ASCII characters are few enough to try them all. -/
theorem forall_isAscii
    {P : Char → Prop}
    (h : ∀ n : Fin 128, P (Char.ofNat n))
    (c : Char)
    (hc : c.toNat < 128) :
    P c := by
  have hChar := h ⟨c.toNat, hc⟩
  rwa [Char.ofNat_toNat] at hChar

/- So are the characters of identifiers. -/
theorem forall_isIdentifierPart
    {P : Char → Prop}
    (h :
      ∀ n : Fin 128,
        isIdentifierPart (Char.ofNat n) = true →
          P (Char.ofNat n))
    (c : Char)
    (hc : isIdentifierPart c = true) :
    P c :=
  forall_isAscii (P := fun d => isIdentifierPart d = true → P d)
    h c (toNat_lt_of_isIdentifierPart hc) hc

/- Letter case does not lead out of identifiers. -/
theorem isIdentifierPart_uppercase
    (c : Char)
    (h : isIdentifierPart c = true) :
    (uppercase c).all isIdentifierPart = true := by
  revert c
  apply forall_isIdentifierPart
  decide +kernel

theorem isIdentifierPart_lowercase
    (c : Char)
    (h : isIdentifierPart c = true) :
    (lowercase c).all isIdentifierPart = true := by
  revert c
  apply forall_isIdentifierPart
  decide +kernel

end TagWire

------------------------------------------------------------
-- Words
------------------------------------------------------------

namespace TagWire

open Grammar Text

/- All characters of a text are those of identifiers. -/
def IsWord
    (text : String) : Prop :=
  ∀ c ∈ text.toList, isIdentifierPart c = true

instance
    (text : String) :
    Decidable (IsWord text) :=
  decidable_of_iff (text.toList.all isIdentifierPart = true)
    List.all_eq_true

theorem isWord_append_iff
    {text text' : String} :
    IsWord (text ++ text') ↔ IsWord text ∧ IsWord text' := by
  unfold IsWord
  rw [String.toList_append]
  exact List.forall_mem_append

theorem isWord_underscore :
    IsWord "_" := by
  decide +kernel

/- An identifier is a word. -/
theorem isWord_of_isIdentifier
    {text : String}
    (h : isIdentifier text = true) :
    IsWord text := by
  rcases isIdentifier_iff.mp h with
    ⟨c, rest, hChars, hStart, hRest⟩
  unfold IsWord
  rw [hChars]
  exact List.forall_mem_cons.mpr
    ⟨isIdentifierPart_iff.mpr (.inl hStart),
      fun d hd => isIdentifierPart_iff.mpr (hRest d hd)⟩

theorem isWord_scalarName
    (kind : ScalarKind) :
    IsWord kind.name := by
  have hAll : ∀ k ∈ ScalarKind.all, IsWord k.name := by
    decide +kernel
  exact hAll kind (ScalarKind.mem_all kind)

theorem isWord_firstUpper
    {text : String}
    (h : IsWord text) :
    IsWord (Names.firstUpper text) := by
  unfold IsWord at h
  unfold Names.firstUpper
  split
  · exact fun c hc => absurd hc (by simp)
  · next c rest hChars =>
      rw [hChars] at h
      rcases List.forall_mem_cons.mp h with ⟨hFirst, hRest⟩
      unfold IsWord
      rw [String.toList_ofList]
      exact List.forall_mem_append.mpr
        ⟨List.all_eq_true.mp
          (isIdentifierPart_uppercase c hFirst), hRest⟩

theorem isWord_snakeCase
    {text : String}
    (h : IsWord text) :
    IsWord (Names.snakeCase text) := by
  have hChars :
      ∀ previous chars,
        (∀ c ∈ chars, isIdentifierPart c = true) →
          ∀ c ∈ Names.snakeChars previous chars,
            isIdentifierPart c = true := by
    intro previous chars hAll
    induction chars generalizing previous with
    | nil => exact hAll
    | cons c rest ih =>
        rcases List.forall_mem_cons.mp hAll with
          ⟨hFirst, hRest⟩
        have ih := ih (some c) hRest
        unfold Names.snakeChars
        split
        · refine List.forall_mem_append.mpr
            ⟨List.forall_mem_append.mpr
              ⟨?_, List.all_eq_true.mp
                (isIdentifierPart_lowercase c hFirst)⟩, ih⟩
          split
          · exact List.forall_mem_singleton.mpr (by decide)
          · simp
        · exact List.forall_mem_cons.mpr ⟨hFirst, ih⟩
  unfold IsWord Names.snakeCase
  rw [String.toList_ofList]
  exact hChars none text.toList h

theorem isWord_escape
    {text : String}
    (h : IsWord text) :
    IsWord (Names.escape text) := by
  unfold Names.escape
  split
  · exact isWord_append_iff.mpr ⟨h, isWord_underscore⟩
  · exact h

/- Numbers are written in digits. -/
theorem isWord_toString
    (n : Nat) :
    IsWord (toString n) := by
  intro c hc
  rw [Nat.toString_eq_ofList_toDigits,
    String.toList_ofList] at hc
  have hDigit :=
    Nat.isDigit_of_mem_toDigits (by decide) (by decide) hc
  simp [isIdentifierPart, Char.isAlphanum, hDigit]

/- No two numbers are written alike. -/
theorem toString_injective :
    Function.Injective (toString : Nat → String) := by
  intro n n' h
  have hDigits := congrArg String.toList h
  rw [Nat.toString_eq_ofList_toDigits,
    Nat.toString_eq_ofList_toDigits, String.toList_ofList,
    String.toList_ofList] at hDigits
  have hNumber := congrArg (Nat.ofDigitChars 10 · 0) hDigits
  simpa [Nat.ofDigitChars_ten_toDigits] using hNumber

end TagWire
