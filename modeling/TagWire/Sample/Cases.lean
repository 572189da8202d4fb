import TagWire.Typed.Format

/-
  This file defines small messages that reach the corners of
  the binary encoding: required and optional fields, gaps
  between tags, messages in messages, a recursive message, and
  lists and maps.

  Key definitions include:
    * `Sample.Person`
    * `Sample.Window`
    * `Sample.StrictWindow`
    * `Sample.Envelope`
    * `Sample.Header`
    * `Sample.Empty`
    * `Sample.Tree`
    * `Sample.Grid`

  Correctness is proven by:
    * `Sample.Tree.encode_eq`
-/

namespace TagWire

open Text

namespace Sample

/- The bits of an integer of four bytes with a sign. -/
abbrev Int32Word : Type :=
  NumKind.Word (.int .int32)

------------------------------------------------------------
-- Scalars
------------------------------------------------------------

/- A required string and an optional number. -/
structure Person where
  name : String
  age : Int32Word
deriving DecidableEq, Repr

namespace Person

/- The format of a person. -/
def format : Format Person Person :=
  (Format.start mk)
    |>.required 1 "name" .string name
    |>.optional 2 "age" (.number (.int .int32)) age

instance : WireMessage Person :=
  format.wireMessage "Person"

end Person

/- Two optional numbers with a gap between their tags. -/
structure Window where
  first : Int32Word
  second : Int32Word
deriving DecidableEq, Repr

namespace Window

/- The format of a window. -/
def format : Format Window Window :=
  (Format.start mk)
    |>.optional 2 "first" (.number (.int .int32)) first
    |>.optional 5 "second" (.number (.int .int32)) second

instance : WireMessage Window :=
  format.wireMessage "Window"

end Window

/- The same with both numbers required. -/
structure StrictWindow where
  first : Int32Word
  second : Int32Word
deriving DecidableEq, Repr

namespace StrictWindow

/- The format of a strict window. -/
def format : Format StrictWindow StrictWindow :=
  (Format.start mk)
    |>.required 2 "first" (.number (.int .int32)) first
    |>.required 5 "second" (.number (.int .int32)) second

instance : WireMessage StrictWindow :=
  format.wireMessage "StrictWindow"

end StrictWindow

/- A message without fields. -/
structure Empty where
deriving DecidableEq, Repr

namespace Empty

/- The format without fields. -/
def format : Format Empty Empty :=
  Format.start mk

instance : WireMessage Empty :=
  format.wireMessage "Empty"

end Empty

------------------------------------------------------------
-- Nested Messages
------------------------------------------------------------

/- What an envelope starts with. -/
structure Header where
  kind : String
  flags : List (NumKind.Word (.int .uint8))
deriving DecidableEq, Inhabited, Repr

namespace Header

/- The format of a header. -/
def format : Format Header Header :=
  (Format.start mk)
    |>.required 1 "kind" .string kind
    |>.optional 2 "flags" (.list (.number (.int .uint8))) flags

instance : WireMessage Header :=
  format.wireMessage "Header"

end Header

/- A message with a required message in it. -/
structure Envelope where
  header : Option Header
  checksum : NumKind.Word (.int .uint32)
deriving DecidableEq, Repr

namespace Envelope

/- The format of an envelope. -/
def format : Format Envelope Envelope :=
  (Format.start mk)
    |>.required 1 "header" (.option (.message Header)) header
    |>.required 2 "checksum" (.number (.int .uint32)) checksum

instance : WireMessage Envelope :=
  format.wireMessage "Envelope"

end Envelope

------------------------------------------------------------
-- Containers
------------------------------------------------------------

/- Lists of lists, a map and a list. -/
structure Grid where
  rows : List (List Int32Word)
  weights :
    Table (NumKind.Word (.int .uint8))
      (NumKind.Word (.float .float32))
  totals : List Int32Word
deriving DecidableEq, Repr

namespace Grid

/- The format of a grid. -/
def format : Format Grid Grid :=
  (Format.start mk)
    |>.optional 1 "rows"
      (.list (.list (.number (.int .int32)))) rows
    |>.optional 2 "weights"
      (.map (.number (.int .uint8)) (.number (.float .float32)))
      weights
    |>.optional 3 "totals" (.list (.number (.int .int32))) totals

instance : WireMessage Grid :=
  format.wireMessage "Grid"

end Grid

------------------------------------------------------------
-- Trees
------------------------------------------------------------

/- A number and any number of smaller trees. -/
inductive Tree where
| node (value : Int32Word) (children : List Tree)
deriving Repr

namespace Tree

/- The number at the top. -/
def value : Tree → Int32Word
| node value _ => value

/- The trees below the top. -/
def children : Tree → List Tree
| node _ children => children

instance : Inhabited Tree :=
  ⟨node 0 []⟩

/- The format of a tree, given the codec of those below. -/
def format
    (child : Codec Tree) :
    Format Tree Tree :=
  (Format.start node)
    |>.required 1 "value" (.number (.int .int32)) value
    |>.optional 2 "children" (.list child) children

mutual

/- Write a tree. -/
def encode : Tree → Except WireError (List UInt8)
| node value children => do
    let top ←
      FieldSpec.encode ⟨1, "value", false⟩
        (.number (.int .int32)) value
    if children.isEmpty then
      return top
    else do
      let size ← encodeLength children.length
      let below ← encodeAll children
      return top ++ 2 :: (size ++ below)

/- Write some trees one behind the other. -/
def encodeAll : List Tree → Except WireError (List UInt8)
| [] => .ok []
| t :: rest => do
    let bytes ← t.encode
    let others ← encodeAll rest
    return bytes ++ others

end

mutual

/- A tree as a diagnostic shows it. -/
def inspect : Tree → String
| node value children =>
    shownParts "Tree"
      [
        ("value", NumKind.inspect (.int .int32) value),
        ("children", bracketed "[" "]" (inspectAll children))
      ]

/- Some trees as shown. -/
def inspectAll : List Tree → List String
| [] => []
| t :: rest => t.inspect :: inspectAll rest

end

/- Trees as parts of others, given how those are read. -/
def codec
    (decode : List UInt8 → Except WireError Tree) :
    Codec Tree :=
  .nested default encode decode inspect

/-
  Read a tree with at most the given number of levels below
  its top. A tree inside another starts behind a tag, so its
  bytes are fewer, and no tree has more levels than bytes.
-/
def decodeWithin :
    Nat → List UInt8 → Except WireError Tree
| 0 =>
    (format (codec fun _ => .error (.unexpectedEnd 0 1))).decode
| depth + 1 => (format (codec (decodeWithin depth))).decode

/- Read a tree. -/
def decode
    (data : List UInt8) :
    Except WireError Tree :=
  decodeWithin data.length data

instance : WireMessage Tree :=
  ⟨encode, decode, inspect⟩

/- Trees are written as the list codec writes its elements. -/
theorem encodeAll_eq
    (decode : List UInt8 → Except WireError Tree)
    (ts : List Tree) :
    encodeAll ts = (codec decode).encodeAll ts := by
  induction ts with
  | nil => rfl
  | cons t rest ih =>
      simp only [encodeAll, ih, Codec.encodeAll, codec,
        Codec.nested, List.mapM_cons, bind_assoc, pure_bind,
        List.flatten_cons]

/- A tree is written as its format says. -/
theorem encode_eq
    (decode : List UInt8 → Except WireError Tree)
    (t : Tree) :
    t.encode = (format (codec decode)).encode t := by
  obtain ⟨value, children⟩ := t
  rw [encode, encodeAll_eq decode]
  simp only [format, Format.required, Format.optional,
    Format.field, Format.start, Tree.value, Tree.children]
  cases FieldSpec.encode ⟨1, "value", false⟩
      (Codec.number (.int .int32)) value with
  | error e => rfl
  | ok top =>
      cases children with
      | nil =>
          show Except.ok top = Except.ok ([] ++ top ++ [])
          rw [List.nil_append, List.append_nil]
      | cons t rest =>
          simp only [FieldSpec.encode, Codec.list,
            List.isEmpty_cons, Bool.false_eq_true, if_false]
          cases encodeLength (t :: rest).length with
          | error e => rfl
          | ok size =>
              cases (codec decode).encodeAll (t :: rest) with
              | error e => rfl
              | ok below => rfl

end Tree

end Sample

end TagWire
