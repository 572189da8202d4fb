import TagWire.Wire.Scalar

/-
  This file defines the single items that a byte string is
  made of, so that runs of writes and of reads can be spoken
  of.

  Key definitions include:
    * `Item`
    * `Item.encode`
    * `ReadStep`
    * `ReadStep.run`
-/

namespace TagWire

/- One item of a byte string. -/
inductive Item where
| byte (b : UInt8)
| tag (b : UInt8)
| number (k : NumKind) (w : k.Word)
| length (n : Nat)
| string (s : String)
| bytes (bs : List UInt8)
deriving DecidableEq, Repr

namespace Item

/- The bytes of an item. -/
def encode : Item → Except WireError (List UInt8)
| byte b => .ok [b]
| tag b => .ok [b]
| number _ w => .ok (LittleEndian.encode w)
| length n => encodeLength n
| string s => encodeString s
| bytes bs => .ok bs

/- Add an item to the bytes already written. -/
def append
    (written : List UInt8)
    (item : Item) :
    Except WireError (List UInt8) := do
  let bs ← item.encode
  return written ++ bs

end Item

/- One step of reading. -/
inductive ReadStep where
| byte
| tag
| number (k : NumKind)
| length
| string
| bytes (n : Nat)
| skip (n : Nat)
deriving DecidableEq, Repr

namespace ReadStep

/-
  What a step reads. A skipped stretch and a tag past the end
  give no item.
-/
def run : ReadStep → Reader WireError (Option Item)
| byte => return some (.byte (← Reader.byte))
| tag => return (← Reader.tag).map .tag
| number k => return some (.number k (← Reader.number k))
| length => return some (.length (← Reader.length))
| string => return some (.string (← Reader.string))
| bytes n => return some (.bytes (← Reader.bytes n))
| skip n => do
    Reader.skip n
    return none

end ReadStep

end TagWire
