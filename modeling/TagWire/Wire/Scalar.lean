import TagWire.Wire.Cursor
import TagWire.Wire.Kind
import TagWire.Wire.LittleEndian

/-
  This file defines the encodings of numbers, lengths and
  strings, each with its reader.

  Key definitions include:
    * `maxLength`
    * `encodeLength`
    * `encodeString`
    * `Reader.number`
    * `Reader.length`
    * `Reader.string`
-/

namespace TagWire

open Text

------------------------------------------------------------
-- Writing
------------------------------------------------------------

/- The greatest length that a length prefix can hold. -/
def maxLength : Nat :=
  Nat.pow 2 31 - 1

/-
  A length prefix: a signed number of four bytes that is not
  negative. A length that does not fit is reported as the
  signed number of eight bytes with its lowest bits.
-/
def encodeLength
    (n : Nat) :
    Except WireError (List UInt8) :=
  if n ≤ maxLength then
    .ok (LittleEndian.bytes 4 n)
  else
    .error (.invalidLength (BitVec.ofNat 64 n).toInt)

/- A string: the number of its bytes, then the bytes. -/
def encodeString
    (s : String) :
    Except WireError (List UInt8) := do
  let prefixBytes ← encodeLength (Utf8.encode s).length
  return prefixBytes ++ Utf8.encode s

------------------------------------------------------------
-- Reading
------------------------------------------------------------

namespace Reader

/- Read a number. -/
def number
    (k : NumKind) :
    Reader WireError k.Word := do
  let bs ← bytes k.size
  return LittleEndian.decode k.size bs

/- Read a length prefix. -/
def length : Reader WireError Nat := do
  let w ← number (.int .int32)
  let n := IntKind.value .int32 w
  if n < 0 then
    fail (.invalidLength n)
  else
    return n.toNat

/- Read a string. -/
def string : Reader WireError String := do
  let n ← length
  let bs ← bytes n
  ofExcept ((Utf8.decode bs).mapError .invalidUtf8)

end Reader

end TagWire
