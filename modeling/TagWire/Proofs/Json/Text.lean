import Mathlib.Data.List.Forall2
import TagWire.Json.Basic
import TagWire.Json.Read
import TagWire.Proofs.Text.Utf8Order

/-
  The texts of JSON values of natural numbers, strings and
  objects, without blanks. In a string a character may stand
  as it is or be escaped, by a letter or by its number. What
  is written on one line is such a text.

  Main declarations:
    * `Json.Spelled` and `Json.IsQuoted`
    * `Json.Plain`
    * `Json.IsText`
    * `Json.isText_compact`
-/

------------------------------------------------------------
-- Bytes of Texts
------------------------------------------------------------

namespace TagWire

namespace Text

namespace Utf8

theorem encode_append
    (s t : String) :
    encode (s ++ t) = encode s ++ encode t := by
  rw [encode_eq_flatMap, encode_eq_flatMap, encode_eq_flatMap,
    String.toList_append, List.flatMap_append]

theorem encode_ofList
    (cs : List Char) :
    encode (String.ofList cs) =
      cs.flatMap String.utf8EncodeChar := by
  rw [encode_eq_flatMap, String.toList_ofList]

/- A character below 128 has one byte, which is its number. -/
theorem utf8EncodeChar_of_lt
    {c : Char}
    (h : c.toNat < 0x80) :
    String.utf8EncodeChar c = [JsonPart.ascii c] := by
  have hLe : c.val.toNat ≤ 0x7F := Nat.lt_succ_iff.mp h
  unfold String.utf8EncodeChar
  simp only [if_pos hLe]
  rfl

theorem flatMap_utf8EncodeChar
    {cs : List Char}
    (h : ∀ c ∈ cs, c.toNat < 0x80) :
    cs.flatMap String.utf8EncodeChar =
      cs.map JsonPart.ascii := by
  induction cs with
  | nil => rfl
  | cons c rest ih =>
      rw [List.flatMap_cons,
        utf8EncodeChar_of_lt (h c List.mem_cons_self),
        ih fun d hd => h d (List.mem_cons_of_mem _ hd)]
      rfl

/- Any other character has bytes from 128 on only. -/
theorem le_of_mem_utf8EncodeChar
    {c : Char}
    (h : 0x80 ≤ c.toNat)
    {b : UInt8}
    (hb : b ∈ String.utf8EncodeChar c) :
    0x80 ≤ b.toNat := by
  have hNot : ¬ c.val.toNat ≤ 0x7F := Nat.not_le.mpr h
  have hOf :
      ∀ n, 0x80 ≤ n → n < 256 → b = UInt8.ofNat n →
        0x80 ≤ b.toNat := by
    intro n hLe hLt hSame
    rw [hSame, UInt8.toNat_ofNat_of_lt' hLt]
    exact hLe
  unfold String.utf8EncodeChar at hb
  simp only [if_neg hNot] at hb
  split_ifs at hb <;>
    simp only [List.mem_cons, List.not_mem_nil, or_false] at hb
  · rcases hb with hb | hb <;>
      exact hOf _ (by omega) (by omega) hb
  · rcases hb with hb | hb | hb <;>
      exact hOf _ (by omega) (by omega) hb
  · rcases hb with hb | hb | hb | hb <;>
      exact hOf _ (by omega) (by omega) hb

end Utf8

end Text

end TagWire

------------------------------------------------------------
-- Digits
------------------------------------------------------------

namespace TagWire

open Text

namespace JsonPart

/- The byte of a character below 128 is its number. -/
theorem toNat_ascii
    {c : Char}
    (h : c.toNat < 0x80) :
    (ascii c).toNat = c.toNat :=
  UInt8.toNat_ofNat_of_lt' (h.trans (by decide))

/- The bytes of a number in base ten. -/
def natBytes
    (n : Nat) :
    List UInt8 :=
  (Nat.toDigits 10 n).map ascii

/- A digit has a byte of its own. -/
theorem isDigitByte_ascii
    {c : Char}
    (h : c.isDigit = true) :
    c.toNat < 0x80 ∧ isDigitByte (ascii c) = true := by
  have hRange : 48 ≤ c.toNat ∧ c.toNat ≤ 57 := by
    simpa [Char.isDigit, UInt32.le_iff_toNat_le] using h
  have hSmall : c.toNat < 0x80 := by omega
  refine ⟨hSmall, ?_⟩
  have hByte := toNat_ascii hSmall
  simp only [isDigitByte, Bool.and_eq_true, decide_eq_true_eq,
    UInt8.le_iff_toNat_le, hByte]
  exact hRange

theorem encode_toString
    (n : Nat) :
    Utf8.encode (toString n) = natBytes n := by
  rw [Nat.toString_eq_ofList_toDigits, Utf8.encode_ofList]
  apply Utf8.flatMap_utf8EncodeChar
  intro c hc
  exact (isDigitByte_ascii
    (Nat.isDigit_of_mem_toDigits (by decide) (by decide) hc)).1

theorem hexValue?_digitChar
    {n : Nat}
    (h : n < 16) :
    hexValue? (ascii (Nat.digitChar n)) = some n := by
  revert n
  decide

theorem toNat_digitChar_lt
    {n : Nat}
    (h : n < 16) :
    (Nat.digitChar n).toNat < 0x80 := by
  revert n
  decide

end JsonPart

end TagWire

------------------------------------------------------------
-- Texts of Strings
------------------------------------------------------------

namespace TagWire

open Text

namespace Json

open JsonPart

/- The characters that may be escaped, with their letters. -/
def letters : List (Char × Char) :=
  [
    ('"', '"'), ('\\', '\\'), ('/', '/'), ('\x08', 'b'),
    ('\x0c', 'f'), ('\n', 'n'), ('\r', 'r'), ('\t', 't')
  ]

/- The number of four digits in base sixteen. -/
def codeOf?
    (a b c d : UInt8) :
    Option Nat := do
  let a ← hexValue? a
  let b ← hexValue? b
  let c ← hexValue? c
  let d ← hexValue? d
  return ((a * 16 + b) * 16 + c) * 16 + d

/- The bytes that a character may have inside a string. -/
inductive Spelled
    (c : Char) :
    List UInt8 → Prop
| raw
    (hVisible : 0x20 ≤ c.toNat)
    (hQuote : c ≠ '"')
    (hBackslash : c ≠ '\\') :
    Spelled c (String.utf8EncodeChar c)
| letter
    {l : Char}
    (h : (c, l) ∈ letters) :
    Spelled c [0x5C, ascii l]
| code
    {a b d e : UInt8}
    (h : codeOf? a b d e = some c.toNat) :
    Spelled c [0x5C, 0x75, a, b, d, e]

/- The bytes of a string between its quotes. -/
def IsQuoted
    (text : String)
    (bytes : List UInt8) :
    Prop :=
  ∃ parts,
    List.Forall₂ Spelled text.toList parts ∧
      bytes = 0x22 :: (parts.flatten ++ [0x22])

/- A character is written in a way in which it may be. -/
theorem spelled_quoteChar
    (c : Char) :
    Spelled c ((quoteChar c).flatMap String.utf8EncodeChar) := by
  unfold quoteChar
  cases hShort : shortEscape? c with
  | some letter =>
      have hLetter : (c, letter) ∈ letters := by
        unfold shortEscape? at hShort
        split at hShort <;> cases hShort <;> simp [letters]
      have hSmall : letter.toNat < 0x80 := by
        unfold shortEscape? at hShort
        split at hShort <;> cases hShort <;> decide
      have hBytes :
          ['\\', letter].flatMap String.utf8EncodeChar =
            [0x5C, ascii letter] := by
        rw [List.flatMap_cons, List.flatMap_cons,
          Utf8.utf8EncodeChar_of_lt hSmall]
        rfl
      rw [hBytes]
      exact .letter hLetter
  | none =>
      by_cases hControl : c.toNat < 0x20
      · have hHigh : c.toNat / 16 < 16 := by omega
        have hLow : c.toNat % 16 < 16 := by omega
        have hCode :
            codeOf? (ascii '0') (ascii '0')
                (ascii (Nat.digitChar (c.toNat / 16)))
                (ascii (Nat.digitChar (c.toNat % 16))) =
              some c.toNat := by
          have hZero : hexValue? (ascii '0') = some 0 := rfl
          have hNumber :
              ((0 * 16 + 0) * 16 + c.toNat / 16) * 16 +
                c.toNat % 16 = c.toNat := by
            omega
          unfold codeOf?
          rw [hZero, hexValue?_digitChar hHigh,
            hexValue?_digitChar hLow]
          exact congrArg some hNumber
        simp only [if_pos hControl]
        rw [Utf8.flatMap_utf8EncodeChar]
        · exact .code hCode
        · simp only [List.forall_mem_cons]
          exact
            ⟨by decide, by decide, by decide, by decide,
              toNat_digitChar_lt hHigh, toNat_digitChar_lt hLow,
              nofun⟩
      · simp only [if_neg hControl, List.flatMap_singleton]
        refine .raw (Nat.not_lt.mp hControl) ?_ ?_ <;>
          rintro rfl <;> cases hShort

theorem isQuoted_quote
    (text : String) :
    IsQuoted text (Utf8.encode (quote text)) := by
  refine
    ⟨text.toList.map fun c =>
      (quoteChar c).flatMap String.utf8EncodeChar, ?_, ?_⟩
  · rw [List.forall₂_map_right_iff, List.forall₂_same]
    exact fun c _ => spelled_quoteChar c
  · rw [quote, Utf8.encode_ofList, List.cons_append,
      List.flatMap_cons, List.flatMap_append,
      List.flatMap_assoc, ← List.flatMap_def]
    rfl

end Json

end TagWire

------------------------------------------------------------
-- Texts of Values
------------------------------------------------------------

namespace TagWire

open Text

namespace Json

open JsonPart

/-
  A value whose numbers are natural, without lists, in which
  objects are inside each other to some depth only.
-/
inductive Plain :
    Nat → Json → Prop
| null
    {depth : Nat} :
    Plain depth .null
| natural
    {depth : Nat}
    (n : Nat) :
    Plain depth (.int n)
| string
    {depth : Nat}
    (text : String) :
    Plain depth (.string text)
| object
    {depth : Nat}
    {members : List (String × Json)}
    (h : ∀ m ∈ members, Plain depth m.2) :
    Plain (depth + 1) (.object members)

mutual

/- The texts of a value, without blanks. -/
inductive IsText :
    Json → List UInt8 → Prop
| null : IsText .null (Utf8.encode "null")
| natural
    (n : Nat) :
    IsText (.int n) (natBytes n)
| string
    {text : String}
    {bytes : List UInt8}
    (h : IsQuoted text bytes) :
    IsText (.string text) bytes
| empty : IsText (.object []) [0x7B, 0x7D]
| object
    {members : List (String × Json)}
    {bytes : List UInt8}
    (h : IsMembers members bytes) :
    IsText (.object members) (0x7B :: (bytes ++ [0x7D]))

/- The texts of the members of an object, at least one. -/
inductive IsMembers :
    List (String × Json) → List UInt8 → Prop
| last
    {m : String × Json}
    {key value : List UInt8}
    (hKey : IsQuoted m.1 key)
    (hValue : IsText m.2 value) :
    IsMembers [m] (key ++ 0x3A :: value)
| more
    {m : String × Json}
    {key value : List UInt8}
    {rest : List (String × Json)}
    {bytes : List UInt8}
    (hKey : IsQuoted m.1 key)
    (hValue : IsText m.2 value)
    (hRest : IsMembers rest bytes) :
    IsMembers (m :: rest)
      (key ++ 0x3A :: (value ++ 0x2C :: bytes))

end

/- The bytes of members, as they stand between the brackets. -/
def memberBytes
    (members : List (String × Json)) :
    List UInt8 :=
  Utf8.encode (join "," (compactMembers members))

/- The text of one member. -/
def memberText
    (m : String × Json) :
    String :=
  quote m.1 ++ ":" ++ m.2.compact

theorem memberBytes_singleton
    (m : String × Json) :
    memberBytes [m] = Utf8.encode (memberText m) := by
  simp only [memberBytes, compactMembers, join,
    String.intercalate_singleton]
  rfl

/- A separator stands between two members. -/
theorem memberBytes_cons
    (m m' : String × Json)
    (rest : List (String × Json)) :
    memberBytes (m :: m' :: rest) =
      Utf8.encode (memberText m) ++
        0x2C :: memberBytes (m' :: rest) := by
  simp only [memberBytes, compactMembers, join,
    String.intercalate_cons_cons, Utf8.encode_append,
    memberText, List.append_assoc]
  rfl

/- Members are written as members are. -/
theorem isMembers_memberBytes
    {members : List (String × Json)}
    (hNotEmpty : members ≠ [])
    (h : ∀ m ∈ members, IsText m.2 (Utf8.encode m.2.compact)) :
    IsMembers members (memberBytes members) := by
  induction members with
  | nil => exact absurd rfl hNotEmpty
  | cons m rest ih =>
      rcases List.forall_mem_cons.mp h with ⟨hHead, hRest⟩
      have hColon : Utf8.encode ":" = [0x3A] := rfl
      have hMember :
          Utf8.encode (memberText m) =
            Utf8.encode (quote m.1) ++
              0x3A :: Utf8.encode m.2.compact := by
        simp only [memberText, Utf8.encode_append, hColon,
          List.append_assoc, List.singleton_append]
      cases rest with
      | nil =>
          rw [memberBytes_singleton, hMember]
          exact .last (isQuoted_quote _) hHead
      | cons m' rest =>
          rw [memberBytes_cons, hMember, List.append_assoc]
          exact
            .more (isQuoted_quote _) hHead
              (ih (List.cons_ne_nil _ _) hRest)

/- What is written on one line is a text of the value. -/
theorem isText_compact
    {depth : Nat}
    {j : Json}
    (h : Plain depth j) :
    IsText j (Utf8.encode j.compact) := by
  induction h with
  | null => exact .null
  | natural n =>
      have hDigits :
          Utf8.encode (Json.int n).compact = natBytes n :=
        encode_toString n
      rw [hDigits]
      exact .natural n
  | string text => exact .string (isQuoted_quote text)
  | @object _ members _ ih =>
      have hText :
          Utf8.encode (object members).compact =
            0x7B :: (memberBytes members ++ [0x7D]) := by
        rw [compact, Utf8.encode_append, Utf8.encode_append]
        rfl
      rw [hText]
      cases members with
      | nil => exact .empty
      | cons m rest =>
          exact
            .object
              (isMembers_memberBytes (List.cons_ne_nil _ _) ih)

end Json

end TagWire
