import Mathlib.Data.List.Lex
import Mathlib.Data.String.Basic
import TagWire.Text.Utf8

/-
  Texts are ordered by their characters, and their UTF-8 bytes
  are ordered alike: the bytes of a character with a greater
  number are greater before the shorter sequence ends.

  Main declarations:
    * `Utf8.encode_eq_flatMap`
    * `Utf8.encodeChar_append_lt`
    * `Utf8.encode_lt_of_compare`
-/

------------------------------------------------------------
-- Bytes of Characters
------------------------------------------------------------

namespace TagWire

namespace Text

namespace Utf8

/- The bytes of a text are those of its characters. -/
theorem encode_eq_flatMap
    (s : String) :
    encode s = s.toList.flatMap String.utf8EncodeChar := by
  unfold encode
  rw [← String.utf8Encode_toList]
  induction s.toList with
  | nil => rfl
  | cons c rest ih =>
      rw [List.utf8Encode_cons, List.flatMap_cons, ← ih]
      simp [List.utf8Encode, List.data_toByteArray]

/- The first byte in which two sequences differ decides. -/
theorem ofNat_cons_lt_iff
    {a b : Nat}
    (ha : a < 256)
    (hb : b < 256)
    {as bs : List UInt8} :
    UInt8.ofNat a :: as < UInt8.ofNat b :: bs ↔
      a < b ∨ a = b ∧ as < bs := by
  rw [List.cons_lt_cons_iff, UInt8.lt_iff_toNat_lt,
    ← UInt8.toNat_inj, UInt8.toNat_ofNat_of_lt' ha,
    UInt8.toNat_ofNat_of_lt' hb]

/- Numbers are ordered by their digits in base 64. -/
private theorem digits_lt
    {v w : Nat}
    (h : v < w) :
    v / 262144 < w / 262144 ∨ v / 262144 = w / 262144 ∧
      (v / 4096 % 64 < w / 4096 % 64 ∨
        v / 4096 % 64 = w / 4096 % 64 ∧
          (v / 64 % 64 < w / 64 % 64 ∨
            v / 64 % 64 = w / 64 % 64 ∧ v % 64 < w % 64)) := by
  omega

/-
  A greater character has greater bytes, whatever is behind:
  either its sequence is longer and starts with a greater
  byte, or the digits of its number decide.
-/
theorem encodeChar_append_lt
    {c d : Char}
    (h : c < d)
    (behind behind' : List UInt8) :
    String.utf8EncodeChar c ++ behind <
      String.utf8EncodeChar d ++ behind' := by
  have hLess : c.val.toNat < d.val.toNat := h
  have hBound : d.val.toNat < 1114112 := by
    have hValid : d.val.toNat.isValidChar := d.valid
    unfold Nat.isValidChar at hValid
    omega
  simp only [String.utf8EncodeChar]
  generalize c.val.toNat = v at hLess
  generalize d.val.toNat = w at hLess hBound
  have hDigits := digits_lt hLess
  -- the greatest digit is small enough for the first byte
  have hLead : v / 262144 % 8 = v / 262144 := by omega
  have hLead' : w / 262144 % 8 = w / 262144 := by omega
  split_ifs <;>
    simp (disch := omega) only [List.cons_append,
      List.nil_append, ofNat_cons_lt_iff] <;>
    omega

/- Texts in order have their bytes in order. -/
theorem encode_lt_of_lt
    {s t : String}
    (h : s < t) :
    encode s < encode t := by
  rw [encode_eq_flatMap, encode_eq_flatMap]
  have hChars : List.Lex (· < ·) s.toList t.toList :=
    String.lt_iff_toList_lt.mp h
  generalize s.toList = cs at hChars
  generalize t.toList = ds at hChars
  induction hChars with
  | @nil d ds =>
      rw [List.flatMap_cons]
      rcases List.exists_cons_of_ne_nil
          (String.utf8EncodeChar_ne_nil (c := d)) with
        ⟨b, bytes, hBytes⟩
      rw [hBytes]
      exact List.nil_lt_cons _ _
  | @cons c cs ds _ ih =>
      rw [List.flatMap_cons, List.flatMap_cons]
      exact List.append_left_lt ih
  | @rel c cs d ds hLess =>
      rw [List.flatMap_cons, List.flatMap_cons]
      exact encodeChar_append_lt hLess _ _

/- Comparing texts is comparing their bytes. -/
theorem encode_lt_of_compare
    {s t : String}
    (h : compare s t = .lt) :
    encode s < encode t :=
  encode_lt_of_lt (compareOfLessAndEq_eq_lt.mp h)

end Utf8

end Text

end TagWire
