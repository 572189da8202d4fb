import TagWire.Text.Shown
import TagWire.Typed.Table
import TagWire.Wire.Inspect
import TagWire.Wire.Scalar

/-
  This file defines codecs of types: how the values of a type
  are written, read and shown, and which of them is the zero
  value. Codecs of compound types are made from those of their
  parts.

  Key definitions include:
    * `Codec`
    * `Codec.number`
    * `Codec.string`
    * `Codec.enum`
    * `Codec.list`
    * `Codec.map`
    * `Codec.nested`
    * `Codec.option`
-/

namespace TagWire

open Text

/- How the values of a type are carried on the wire. -/
structure Codec (α : Type) where
  zero : α
  isZero : α → Bool
  encode : α → Except WireError (List UInt8)
  read : Reader WireError α
  inspect : α → String

namespace Codec

variable {κ α : Type}

------------------------------------------------------------
-- Scalars
------------------------------------------------------------

/- Numbers are carried as their bytes, the lowest first. -/
def number
    (k : NumKind) :
    Codec k.Word where
  zero := 0
  isZero := k.isZero
  encode w := .ok (LittleEndian.encode w)
  read := Reader.number k
  inspect := k.inspect

/- Strings are carried with their length in front. -/
def string : Codec String where
  zero := ""
  isZero := String.isEmpty
  encode := encodeString
  read := Reader.string
  inspect := Text.inspect

/-
  Values of an enum are carried as the number of their variant
  among those declared. The first variant is the zero value.
-/
def enum
    [DecidableEq α]
    (name : String)
    (first : α)
    (others : List α)
    (variant : α → String) :
    Codec α where
  zero := first
  isZero a := a = first
  encode a :=
    .ok (LittleEndian.bytes 4 ((first :: others).idxOf a))
  read := do
    let word ← Reader.number (.int .uint32)
    match (first :: others)[word.toNat]? with
    | some a => return a
    | none => Reader.fail (.invalidEnumValue name word.toNat)
  inspect := variant

------------------------------------------------------------
-- Containers
------------------------------------------------------------

/- Write some values one behind the other. -/
def encodeAll
    (c : Codec α)
    (values : List α) :
    Except WireError (List UInt8) := do
  let parts ← values.mapM c.encode
  return parts.flatten

/- Lists are carried with their size in front. -/
def list
    (c : Codec α) :
    Codec (List α) where
  zero := []
  isZero := List.isEmpty
  encode values := do
    let size ← encodeLength values.length
    let parts ← c.encodeAll values
    return size ++ parts
  read := do
    let size ← Reader.length
    c.read.times size
  inspect values := bracketed "[" "]" (values.map c.inspect)

/- A key and its value are carried one behind the other. -/
def entry
    (c : Codec κ)
    (d : Codec α) :
    Codec (κ × α) where
  zero := (c.zero, d.zero)
  isZero e := c.isZero e.1 && d.isZero e.2
  encode e := do
    let key ← c.encode e.1
    let value ← d.encode e.2
    return key ++ value
  read := do
    let key ← c.read
    let value ← d.read
    return (key, value)
  inspect e := c.inspect e.1 ++ ": " ++ d.inspect e.2

/-
  Maps are carried as the list of their entries. A reader
  accepts the entries in any order, and of those with the same
  key the last one counts.
-/
def map
    [Ord κ]
    [Std.TransOrd κ]
    [Std.LawfulEqOrd κ]
    (c : Codec κ)
    (d : Codec α) :
    Codec (Table κ α) where
  zero := Table.empty
  isZero t := t.entries.isEmpty
  encode t := (list (entry c d)).encode t.entries
  read := do
    let entries ← (list (entry c d)).read
    return Table.ofList entries
  inspect t :=
    bracketed leftBrace rightBrace
      (t.entries.map (entry c d).inspect)

------------------------------------------------------------
-- Messages
------------------------------------------------------------

/-
  A message inside another is carried without its length. It
  is read from all bytes ahead, and the bytes it takes up are
  those of its own encoding. It is never the zero value.
-/
def nested
    (zero : α)
    (encode : α → Except WireError (List UInt8))
    (decode : List UInt8 → Except WireError α)
    (inspect : α → String) :
    Codec α where
  zero := zero
  isZero _ := false
  encode := encode
  read := do
    let ahead ← Reader.lookahead
    let a ← Reader.ofExcept (decode ahead)
    let bytes ← Reader.ofExcept (encode a)
    Reader.skip bytes.length
    return a
  inspect := inspect

/- A field of a message type holds a message or nothing. -/
def option
    (c : Codec α) :
    Codec (Option α) where
  zero := none
  isZero := Option.isNone
  encode a? :=
    match a? with
    | some a => c.encode a
    | none => .ok []
  read := do
    let a ← c.read
    return some a
  inspect a? :=
    match a? with
    | some a => s!"Some({c.inspect a})"
    | none => "None"

end Codec

end TagWire
