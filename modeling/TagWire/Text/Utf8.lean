/-
  This file defines the UTF-8 bytes of a text and the way
  back. Reading succeeds exactly on the bytes of some text;
  on others it tells where the first bad sequence starts.

  Key definitions include:
    * `Utf8.Fault`
    * `Utf8.encode`
    * `Utf8.decode`

  Correctness is proven by:
    * `Utf8.decode_encode`
    * `Utf8.encode_of_decode`
-/

namespace TagWire

namespace Text

namespace Utf8

------------------------------------------------------------
-- Faults
------------------------------------------------------------

/-
  Where a byte sequence stops being UTF-8: the number of good
  bytes before, and the length of the bad sequence, which is
  absent when the input ends inside a sequence.
-/
structure Fault where
  validUpTo : Nat
  badLength : Option Nat
deriving DecidableEq, Repr

namespace Fault

/- The description of a fault. -/
def message : Fault → String
| ⟨start, some length⟩ =>
    s!"invalid utf-8 sequence of {length} bytes from index {start}"
| ⟨start, none⟩ =>
    s!"incomplete utf-8 byte sequence from index {start}"

end Fault

/- The closed interval of values that a byte may take. -/
structure ByteRange where
  low : UInt8
  high : UInt8
deriving DecidableEq, Repr

namespace ByteRange

/- Whether a byte lies in the interval. -/
def contains
    (r : ByteRange)
    (b : UInt8) :
    Bool :=
  r.low ≤ b && b ≤ r.high

/- The bytes that continue a sequence. -/
def continuation : ByteRange :=
  ⟨0x80, 0xBF⟩

end ByteRange

/-
  What may follow the first byte of a sequence. The second
  byte is narrowed where the full interval would admit an
  overlong form, a surrogate, or a number above the last code
  point.
-/
def followers?
    (lead : UInt8) :
    Option (List ByteRange) :=
  if lead < 0x80 then
    some []
  else if lead < 0xC2 then
    none
  else if lead < 0xE0 then
    some [.continuation]
  else if lead < 0xF0 then
    some
      [if lead = 0xE0 then ⟨0xA0, 0xBF⟩
        else if lead = 0xED then ⟨0x80, 0x9F⟩
        else .continuation,
        .continuation]
  else if lead < 0xF5 then
    some
      [if lead = 0xF0 then ⟨0x90, 0xBF⟩
        else if lead = 0xF4 then ⟨0x80, 0x8F⟩
        else .continuation,
        .continuation, .continuation]
  else
    none

/-
  Find the first fault, given the bytes that the sequence
  begun at `start` still needs and the number of its bytes
  already `seen`.
-/
def firstFault? :
    List ByteRange → Nat → Nat → List UInt8 → Option Fault
| [], _, _, [] => none
| _ :: _, start, _, [] => some ⟨start, none⟩
| [], start, seen, b :: bs =>
    match followers? b with
    | some ranges => firstFault? ranges (start + seen) 1 bs
    | none => some ⟨start + seen, some 1⟩
| r :: rs, start, seen, b :: bs =>
    if r.contains b then
      firstFault? rs start (seen + 1) bs
    else
      some ⟨start, some seen⟩

------------------------------------------------------------
-- Encoding and Decoding
------------------------------------------------------------

/- The UTF-8 bytes of a text. -/
def encode
    (s : String) :
    List UInt8 :=
  s.toByteArray.data.toList

/- The text with the given UTF-8 bytes, if there is one. -/
def decode
    (bytes : List UInt8) :
    Except Fault String :=
  if h : bytes.toByteArray.validateUTF8 = true then
    .ok
      (String.ofByteArray bytes.toByteArray
        (ByteArray.validateUTF8_eq_true_iff.mp h))
  else
    .error ((firstFault? [] 0 0 bytes).getD ⟨0, none⟩)

/- The bytes of a text are as many as its encoded size. -/
theorem length_encode
    (s : String) :
    (encode s).length = s.utf8ByteSize := by
  rfl

/- The bytes of a text, collected, are its byte array. -/
theorem toByteArray_encode
    (s : String) :
    (encode s).toByteArray = s.toByteArray := by
  apply ByteArray.ext
  simp [encode, List.data_toByteArray]

/- Reading the bytes of a text gives the text. -/
theorem decode_encode
    (s : String) :
    decode (encode s) = .ok s := by
  have hValid :
      (encode s).toByteArray.validateUTF8 = true := by
    rw [toByteArray_encode]
    exact ByteArray.validateUTF8_eq_true_iff.mpr s.isValidUTF8
  rw [decode, dif_pos hValid]
  congr 1
  apply String.toByteArray_inj.mp
  exact toByteArray_encode s

/- Bytes that read as a text are the bytes of that text. -/
theorem encode_of_decode
    {bytes : List UInt8}
    {s : String}
    (h : decode bytes = .ok s) :
    encode s = bytes := by
  unfold decode at h
  split at h
  · cases h
    simp [encode, List.data_toByteArray]
  · cases h

end Utf8

end Text

end TagWire
