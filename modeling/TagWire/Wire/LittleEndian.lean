/-
  This file defines fixed-width numbers as bytes, lowest byte
  first.

  Key definitions include:
    * `LittleEndian.bytes`
    * `LittleEndian.number`
    * `LittleEndian.encode`
    * `LittleEndian.decode`

  Correctness is proven by:
    * `LittleEndian.decode_encode`
    * `LittleEndian.encode_decode`
-/

namespace TagWire

namespace LittleEndian

------------------------------------------------------------
-- Natural Numbers
------------------------------------------------------------

/- The lowest bytes of a number, lowest first. -/
def bytes : Nat → Nat → List UInt8
| 0, _ => []
| size + 1, n => UInt8.ofNat n :: bytes size (n / 256)

/- The number with the given bytes, lowest first. -/
def number : List UInt8 → Nat
| [] => 0
| b :: bs => b.toNat + 256 * number bs

/- As many bytes are written as were asked for. -/
@[simp]
theorem length_bytes
    (size n : Nat) :
    (bytes size n).length = size := by
  induction size generalizing n with
  | zero => rfl
  | succ size ih => simp [bytes, ih]

/- Some bytes stand for a number of at most their width. -/
theorem number_lt
    (bs : List UInt8) :
    number bs < Nat.pow 256 bs.length := by
  induction bs with
  | nil => simp [number]
  | cons b bs ih =>
      have hb : b.toNat < 256 := b.toNat_lt
      simp only [number, List.length_cons, Nat.pow_eq,
        Nat.pow_succ] at ih ⊢
      omega

/- The written bytes stand for the number, cut to width. -/
theorem number_bytes
    (size n : Nat) :
    number (bytes size n) = n % Nat.pow 256 size := by
  rw [Nat.pow_eq]
  induction size generalizing n with
  | zero => simp [bytes, number, Nat.mod_one]
  | succ size ih =>
      rw [bytes, number, ih, Nat.pow_succ,
        Nat.mul_comm _ 256, Nat.mod_mul]
      simp

/- Writing the number of some bytes gives the bytes. -/
theorem bytes_number
    (bs : List UInt8) :
    bytes bs.length (number bs) = bs := by
  induction bs with
  | nil => rfl
  | cons b bs ih =>
      have hb : b.toNat < 256 := b.toNat_lt
      have hDiv :
          (b.toNat + 256 * number bs) / 256 = number bs := by
        omega
      have hMod :
          UInt8.ofNat (b.toNat + 256 * number bs) = b := by
        apply UInt8.toNat_inj.mp
        simp
      simp [bytes, number, hDiv, hMod, ih]

------------------------------------------------------------
-- Words
------------------------------------------------------------

/- The bytes of a word. -/
def encode
    {size : Nat}
    (w : BitVec (8 * size)) :
    List UInt8 :=
  bytes size w.toNat

/- The word with the given bytes. -/
def decode
    (size : Nat)
    (bs : List UInt8) :
    BitVec (8 * size) :=
  BitVec.ofNat (8 * size) (number bs)

/- A word is as long as its width. -/
@[simp]
theorem length_encode
    {size : Nat}
    (w : BitVec (8 * size)) :
    (encode w).length = size :=
  length_bytes size w.toNat

private theorem two_pow_eight_mul
    (size : Nat) :
    Nat.pow 2 (8 * size) = Nat.pow 256 size := by
  rw [Nat.pow_eq, Nat.pow_eq, Nat.pow_mul]

/- Reading the bytes of a word gives the word. -/
theorem decode_encode
    {size : Nat}
    (w : BitVec (8 * size)) :
    decode size (encode w) = w := by
  apply BitVec.eq_of_toNat_eq
  have hLt :=
    Nat.lt_of_lt_of_eq w.isLt (two_pow_eight_mul size)
  simp only [decode, encode, number_bytes,
    BitVec.toNat_ofNat]
  rw [Nat.mod_eq_of_lt hLt, Nat.mod_eq_of_lt w.isLt]

/- Writing the word of some bytes gives the bytes. -/
theorem encode_decode
    {size : Nat}
    {bs : List UInt8}
    (h : bs.length = size) :
    encode (decode size bs) = bs := by
  subst h
  have hLt :=
    Nat.lt_of_lt_of_eq (number_lt bs)
      (two_pow_eight_mul bs.length).symm
  simp only [encode, decode, BitVec.toNat_ofNat]
  exact
    (congrArg (bytes bs.length) (Nat.mod_eq_of_lt hLt)).trans
      (bytes_number bs)

end LittleEndian

end TagWire
