import TagWire.Proofs.Json.Text

/-
  A text is read back from any of the ways in which it may be
  written as a JSON string. The bytes between the quotes are
  read as units, and these have the bytes of the text.

  Main declarations:
    * `JsonPart.ReadsUnits`
    * `JsonPart.exists_readsUnits_of_spelled`
    * `Json.IsQuoted.exists_units`
-/

------------------------------------------------------------
-- Reading Units
------------------------------------------------------------

namespace TagWire

open Text

namespace JsonPart

/- Put units in front of those that were read. -/
def before
    (units : List JsonUnit)
    (r : List JsonUnit × List UInt8) :
    List JsonUnit × List UInt8 :=
  (units ++ r.1, r.2)

/-
  Some bytes inside a string are read as units, and what these
  stand for is some content.
-/
structure ReadsUnits
    (bytes : List UInt8)
    (units : List JsonUnit)
    (content : List UInt8) : Prop where
  read :
    ∀ rest,
      readString? (bytes ++ rest) =
        (readString? rest).map (before units)
  unitBytes :
    ∀ more,
      unitBytes? (units ++ more) =
        (unitBytes? more).map (content ++ ·)

namespace ReadsUnits

theorem nil :
    ReadsUnits [] [] [] where
  read rest := by
    cases hRest : readString? rest <;> simp [hRest, before]
  unitBytes more := by
    simp

theorem append
    {bytes bytes' : List UInt8}
    {units units' : List JsonUnit}
    {content content' : List UInt8}
    (h : ReadsUnits bytes units content)
    (h' : ReadsUnits bytes' units' content') :
    ReadsUnits (bytes ++ bytes') (units ++ units')
      (content ++ content') where
  read rest := by
    rw [List.append_assoc, h.read, h'.read, Option.map_map]
    cases readString? rest <;> simp [before]
  unitBytes more := by
    rw [List.append_assoc, h.unitBytes, h'.unitBytes,
      Option.map_map]
    cases unitBytes? more <;> simp

end ReadsUnits

/- A byte that stands for itself in a string. -/
structure IsPlain
    (b : UInt8) : Prop where
  notControl : ¬ b < 0x20
  notQuote : b ≠ 0x22
  notBackslash : b ≠ 0x5C

theorem readString?_plain
    {b : UInt8}
    (h : IsPlain b)
    (rest : List UInt8) :
    readString? (b :: rest) =
      (readString? rest).map (before [.byte b]) := by
  rw [readString?]
  · have hRead : (b < 0x20 || b == 0x5C) = false := by
      simp [h.notControl, h.notBackslash]
    rw [if_neg (Bool.not_eq_true _ ▸ hRead)]
    cases readString? rest <;> rfl
  · exact h.notQuote
  · exact fun _ _ _ _ _ hSame _ => h.notBackslash hSame
  · exact fun _ _ hSame _ => h.notBackslash hSame

theorem unitBytes?_byte
    (b : UInt8)
    (more : List JsonUnit) :
    unitBytes? (.byte b :: more) =
      (unitBytes? more).map ([b] ++ ·) := by
  rw [unitBytes?]
  cases unitBytes? more <;> rfl

/- Plain bytes are read as they are. -/
theorem readsUnits_plain
    {bytes : List UInt8}
    (h : ∀ b ∈ bytes, IsPlain b) :
    ReadsUnits bytes (bytes.map .byte) bytes := by
  induction bytes with
  | nil => exact .nil
  | cons b bytes ih =>
      rcases List.forall_mem_cons.mp h with ⟨hHead, hRest⟩
      have hFirst : ReadsUnits [b] [.byte b] [b] :=
        ⟨readString?_plain hHead, unitBytes?_byte b⟩
      exact hFirst.append (ih hRest)

end JsonPart

end TagWire

------------------------------------------------------------
-- Characters
------------------------------------------------------------

namespace TagWire

open Text

namespace JsonPart

open Json

/- A letter behind a backslash is read as its character. -/
theorem readsUnits_letter
    {c l : Char}
    (h : (c, l) ∈ letters) :
    ReadsUnits [0x5C, ascii l] [.byte (ascii c)]
      (String.utf8EncodeChar c) := by
  have hAll :
      ∀ e ∈ letters,
        e.1.toNat < 0x80 ∧ ascii e.2 ≠ 0x75 ∧
          escapeUnit? (ascii e.2) =
            some (.byte (ascii e.1)) := by
    simp only [letters, List.forall_mem_cons]
    refine
      ⟨?_, ?_, ?_, ?_, ?_, ?_, ?_, ?_,
        List.forall_mem_nil _⟩ <;>
      decide
  rcases hAll _ h with ⟨hSmall, hNumber, hUnit⟩
  constructor
  · intro rest
    show readString? (0x5C :: ascii l :: rest) = _
    rw [readString?]
    · rw [hUnit]
      cases readString? rest <;> rfl
    · exact fun _ _ _ _ _ hSame _ => hNumber hSame
  · intro more
    rw [Utf8.utf8EncodeChar_of_lt hSmall]
    exact unitBytes?_byte _ more

/- No character has a number that is set apart for pairs. -/
theorem notSurrogate
    (c : Char) :
    c.toNat < 0xD800 ∨ 0xE000 ≤ c.toNat := by
  rcases c.valid with h | ⟨h, _⟩
  · exact .inl h
  · exact .inr h

/- Four digits are read as the character of their number. -/
theorem readsUnits_code
    {c : Char}
    {a b d e : UInt8}
    (h : codeOf? a b d e = some c.toNat) :
    ReadsUnits [0x5C, 0x75, a, b, d, e] [.code c.toNat]
      (String.utf8EncodeChar c) := by
  constructor
  · intro rest
    show readString? (0x5C :: 0x75 :: a :: b :: d :: e :: rest)
      = _
    unfold codeOf? at h
    rw [readString?]
    simp only [Option.bind_eq_bind, Option.bind_eq_some_iff,
      Option.pure_def, Option.some.injEq] at h
    rcases h with ⟨a', ha, b', hb, d', hd, e', he, hSame⟩
    rw [ha, hb, hd, he, ← hSame]
    cases readString? rest <;> rfl
  · intro more
    have hCode :
        codeBytes c.toNat = String.utf8EncodeChar c := by
      rw [codeBytes, Char.ofNat_toNat, Utf8.encode_ofList,
        List.flatMap_singleton]
    have hApart := notSurrogate c
    rw [List.singleton_append, unitBytes?.eq_def]
    show (if _ then _ else if _ then _ else _) = _
    rw [if_neg (by omega), if_neg (by omega), hCode]
    cases unitBytes? more <;> rfl

theorem isPlain_iff
    {b : UInt8} :
    IsPlain b ↔
      0x20 ≤ b.toNat ∧ b.toNat ≠ 0x22 ∧ b.toNat ≠ 0x5C := by
  have hQuote : b = 0x22 ↔ b.toNat = 0x22 :=
    UInt8.toNat_inj.symm
  have hBackslash : b = 0x5C ↔ b.toNat = 0x5C :=
    UInt8.toNat_inj.symm
  have hControl : b < 0x20 ↔ b.toNat < 0x20 :=
    UInt8.lt_iff_toNat_lt
  rw [← not_lt, ← hControl, Ne, Ne, ← hQuote, ← hBackslash]
  exact
    ⟨fun h => ⟨h.1, h.2, h.3⟩,
      fun h => ⟨h.1, h.2.1, h.2.2⟩⟩

/- What need not be escaped has plain bytes. -/
theorem isPlain_of_mem
    {c : Char}
    (hVisible : 0x20 ≤ c.toNat)
    (hQuote : c ≠ '"')
    (hBackslash : c ≠ '\\')
    {b : UInt8}
    (hb : b ∈ String.utf8EncodeChar c) :
    IsPlain b := by
  rw [isPlain_iff]
  by_cases hAscii : c.toNat < 0x80
  · rw [Utf8.utf8EncodeChar_of_lt hAscii] at hb
    rw [List.mem_singleton.mp hb, toNat_ascii hAscii]
    exact
      ⟨hVisible, fun h => hQuote (Char.toNat_inj.mp h),
        fun h => hBackslash (Char.toNat_inj.mp h)⟩
  · have hByte :=
      Utf8.le_of_mem_utf8EncodeChar (Nat.not_lt.mp hAscii) hb
    omega

/- In whatever way a character is written, it is read. -/
theorem exists_readsUnits_of_spelled
    {c : Char}
    {bytes : List UInt8}
    (h : Spelled c bytes) :
    ∃ units, ReadsUnits bytes units (String.utf8EncodeChar c) := by
  cases h with
  | raw hVisible hQuote hBackslash =>
      exact
        ⟨_, readsUnits_plain fun _ hb =>
          isPlain_of_mem hVisible hQuote hBackslash hb⟩
  | letter h => exact ⟨_, readsUnits_letter h⟩
  | code h => exact ⟨_, readsUnits_code h⟩

end JsonPart

end TagWire

------------------------------------------------------------
-- Texts
------------------------------------------------------------

namespace TagWire

open Text

namespace Json

open JsonPart

/- The characters of a string are read one after the other. -/
theorem exists_readsUnits_of_forall₂
    {cs : List Char}
    {parts : List (List UInt8)}
    (h : List.Forall₂ Spelled cs parts) :
    ∃ units,
      ReadsUnits parts.flatten units
        (cs.flatMap String.utf8EncodeChar) := by
  induction h with
  | nil => exact ⟨[], .nil⟩
  | cons hHead _ ih =>
      rcases exists_readsUnits_of_spelled hHead with
        ⟨units, hUnits⟩
      rcases ih with ⟨units', hUnits'⟩
      exact ⟨_, hUnits.append hUnits'⟩

/- A quoted text is read as units that have the text. -/
theorem IsQuoted.exists_units
    {text : String}
    {bytes : List UInt8}
    (h : IsQuoted text bytes) :
    ∃ body units,
      bytes = 0x22 :: body ∧
      (∀ rest, readString? (body ++ rest) = some (units, rest)) ∧
      unitText? units = some text := by
  rcases h with ⟨parts, hParts, rfl⟩
  rcases exists_readsUnits_of_forall₂ hParts with
    ⟨units, hUnits⟩
  refine ⟨_, units, rfl, ?_, ?_⟩
  · intro rest
    rw [List.append_assoc, hUnits.read]
    show Option.map _ (readString? (0x22 :: rest)) = _
    rw [readString?]
    simp [before]
  · have hBytes := hUnits.unitBytes []
    have hNil : unitBytes? [] = some [] := rfl
    rw [List.append_nil, hNil, Option.map_some,
      List.append_nil, ← Utf8.encode_eq_flatMap] at hBytes
    unfold unitText?
    rw [hBytes]
    show (Utf8.decode (Utf8.encode text)).toOption = _
    rw [Utf8.decode_encode]
    rfl

end Json

end TagWire
