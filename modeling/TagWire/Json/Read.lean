import TagWire.Text.Utf8

/-
  This file defines the reading of JSON. A text is first taken
  apart, with strings and numbers left as they are written;
  only a part that is used is looked at more closely.

  Key definitions include:
    * `JsonUnit`
    * `JsonPart`
    * `JsonPart.ofBytes?`
    * `JsonPart.string?`
    * `JsonPart.natural?`
    * `JsonPart.fields?`
    * `JsonPart.variant?`
-/

namespace TagWire

open Text

------------------------------------------------------------
-- Parts
------------------------------------------------------------

/- A byte of a string, or a code unit written by number. -/
inductive JsonUnit where
| byte (b : UInt8)
| code (n : Nat)
deriving DecidableEq, Repr

/- A JSON value as it is written. -/
inductive JsonPart where
| null
| bool (b : Bool)
| number (text : List UInt8)
| string (units : List JsonUnit)
| array (elements : List JsonPart)
| object (members : List (List JsonUnit × JsonPart))
deriving Repr

namespace JsonPart

------------------------------------------------------------
-- Bytes
------------------------------------------------------------

/- The byte of an ASCII character. -/
def ascii
    (c : Char) :
    UInt8 :=
  UInt8.ofNat c.toNat

/- Whether a byte may stand between two parts. -/
def isBlankByte
    (b : UInt8) :
    Bool :=
  b == ascii ' ' || b == ascii '\n' || b == ascii '\t' ||
    b == ascii '\r'

/- The bytes behind the blanks. -/
def skipBlanks
    (bs : List UInt8) :
    List UInt8 :=
  bs.dropWhile isBlankByte

/- Whether a byte is a decimal digit. -/
def isDigitByte
    (b : UInt8) :
    Bool :=
  ascii '0' ≤ b && b ≤ ascii '9'

/- The value of a digit in base sixteen. -/
def hexValue?
    (b : UInt8) :
    Option Nat :=
  if isDigitByte b then
    some (b.toNat - '0'.toNat)
  else if ascii 'a' ≤ b && b ≤ ascii 'f' then
    some (b.toNat - 'a'.toNat + 10)
  else if ascii 'A' ≤ b && b ≤ ascii 'F' then
    some (b.toNat - 'A'.toNat + 10)
  else
    none

/- What remains behind a word, if the bytes start with it. -/
def afterWord?
    (word : String)
    (bs : List UInt8) :
    Option (List UInt8) :=
  let expected := Utf8.encode word
  if expected.isPrefixOf bs then
    some (bs.drop expected.length)
  else
    none

------------------------------------------------------------
-- Strings
------------------------------------------------------------

/- What a letter behind a backslash stands for. -/
def escapeUnit?
    (b : UInt8) :
    Option JsonUnit :=
  if b == ascii '"' || b == ascii '\\' || b == ascii '/' then
    some (.byte b)
  else if b == ascii 'b' then
    some (.byte 0x08)
  else if b == ascii 'f' then
    some (.byte 0x0C)
  else if b == ascii 'n' then
    some (.byte 0x0A)
  else if b == ascii 'r' then
    some (.byte 0x0D)
  else if b == ascii 't' then
    some (.byte 0x09)
  else
    none

/- The units of a string and the bytes behind its quote. -/
def readString? :
    List UInt8 → Option (List JsonUnit × List UInt8)
| [] => none
| 0x22 :: rest => some ([], rest)
| 0x5C :: 0x75 :: a :: b :: c :: d :: rest => do
    let a ← hexValue? a
    let b ← hexValue? b
    let c ← hexValue? c
    let d ← hexValue? d
    let (units, rest) ← readString? rest
    return (.code (((a * 16 + b) * 16 + c) * 16 + d) :: units,
      rest)
| 0x5C :: b :: rest => do
    let unit ← escapeUnit? b
    let (units, rest) ← readString? rest
    return (unit :: units, rest)
| b :: rest =>
    if b < 0x20 || b == 0x5C then
      none
    else do
      let (units, rest) ← readString? rest
      return (.byte b :: units, rest)

------------------------------------------------------------
-- Numbers
------------------------------------------------------------

/- Some digits, at least one, and the bytes behind them. -/
def readDigits?
    (bs : List UInt8) :
    Option (List UInt8 × List UInt8) :=
  let digits := bs.takeWhile isDigitByte
  if digits.isEmpty then
    none
  else
    some (digits, bs.drop digits.length)

/- The whole part of a number: no zero stands in front. -/
def readWhole? :
    List UInt8 → Option (List UInt8 × List UInt8)
| 0x30 :: rest => some ([0x30], rest)
| bs => readDigits? bs

/- The part of a number behind its point, if there is one. -/
def readFraction? :
    List UInt8 → Option (List UInt8 × List UInt8)
| 0x2E :: rest => do
    let (digits, rest) ← readDigits? rest
    return (0x2E :: digits, rest)
| bs => some ([], bs)

/- The digits of an exponent, which may have a sign. -/
def readSigned? :
    List UInt8 → Option (List UInt8 × List UInt8)
| b :: rest =>
    if b == ascii '+' || b == ascii '-' then do
      let (digits, rest) ← readDigits? rest
      return (b :: digits, rest)
    else
      readDigits? (b :: rest)
| [] => none

/- The exponent of a number, if there is one. -/
def readExponent? :
    List UInt8 → Option (List UInt8 × List UInt8)
| b :: rest =>
    if b == ascii 'e' || b == ascii 'E' then do
      let (digits, rest) ← readSigned? rest
      return (b :: digits, rest)
    else
      some ([], b :: rest)
| [] => some ([], [])

/- The sign of a number, if there is one. -/
def readMinus :
    List UInt8 → List UInt8 × List UInt8
| 0x2D :: rest => ([0x2D], rest)
| bs => ([], bs)

/- A number and the bytes behind it. -/
def readNumber?
    (bs : List UInt8) :
    Option (JsonPart × List UInt8) := do
  let (sign, rest) := readMinus bs
  let (whole, rest) ← readWhole? rest
  let (fraction, rest) ← readFraction? rest
  let (exponent, rest) ← readExponent? rest
  return (.number (sign ++ whole ++ fraction ++ exponent), rest)

------------------------------------------------------------
-- Values
------------------------------------------------------------

mutual

/-
  A value and the bytes behind it. The budget bounds the calls
  inside each other; every call takes a byte, so as many as
  there are bytes suffice.
-/
def readValue? :
    Nat → List UInt8 → Option (JsonPart × List UInt8)
| 0, _ => none
| budget + 1, bs =>
    match skipBlanks bs with
    | 0x22 :: rest => do
        let (units, rest) ← readString? rest
        return (.string units, rest)
    | 0x5B :: rest =>
        match skipBlanks rest with
        | 0x5D :: rest => some (.array [], rest)
        | rest => do
            let (elements, rest) ← readElements? budget rest
            return (.array elements, rest)
    | 0x7B :: rest =>
        match skipBlanks rest with
        | 0x7D :: rest => some (.object [], rest)
        | rest => do
            let (members, rest) ← readMembers? budget rest
            return (.object members, rest)
    | rest =>
        match afterWord? "null" rest, afterWord? "true" rest,
            afterWord? "false" rest with
        | some rest, _, _ => some (.null, rest)
        | _, some rest, _ => some (.bool true, rest)
        | _, _, some rest => some (.bool false, rest)
        | none, none, none => readNumber? rest

/- The elements of an array, at least one, and its end. -/
def readElements? :
    Nat → List UInt8 → Option (List JsonPart × List UInt8)
| 0, _ => none
| budget + 1, bs => do
    let (element, rest) ← readValue? budget bs
    match skipBlanks rest with
    | 0x2C :: rest => do
        let (elements, rest) ← readElements? budget rest
        return (element :: elements, rest)
    | 0x5D :: rest => return ([element], rest)
    | _ => none

/- The members of an object, at least one, and its end. -/
def readMembers? :
    Nat → List UInt8 →
      Option (List (List JsonUnit × JsonPart) × List UInt8)
| 0, _ => none
| budget + 1, bs =>
    match skipBlanks bs with
    | 0x22 :: rest => do
        let (key, rest) ← readString? rest
        match skipBlanks rest with
        | 0x3A :: rest => do
            let (value, rest) ← readValue? budget rest
            match skipBlanks rest with
            | 0x2C :: rest => do
                let (members, rest) ← readMembers? budget rest
                return ((key, value) :: members, rest)
            | 0x7D :: rest => return ([(key, value)], rest)
            | _ => none
        | _ => none
    | _ => none

end

/- The value that some bytes are the text of. -/
def ofBytes?
    (bs : List UInt8) :
    Option JsonPart := do
  let (value, rest) ← readValue? (bs.length + 1) bs
  if (skipBlanks rest).isEmpty then
    return value
  else
    none

------------------------------------------------------------
-- Use
------------------------------------------------------------

/- The UTF-8 bytes of a code point. -/
def codeBytes
    (n : Nat) :
    List UInt8 :=
  Utf8.encode (String.ofList [Char.ofNat n])

/-
  The bytes of some units. Two units from the ranges set apart
  for pairs make one character, and neither stands alone.
-/
def unitBytes? : List JsonUnit → Option (List UInt8)
| [] => some []
| .byte b :: rest => do
    let bytes ← unitBytes? rest
    return b :: bytes
| .code n :: rest =>
    if 0xDC00 ≤ n ∧ n < 0xE000 then
      none
    else if 0xD800 ≤ n ∧ n < 0xDC00 then
      match rest with
      | .code low :: rest =>
          if 0xDC00 ≤ low ∧ low < 0xE000 then do
            let bytes ← unitBytes? rest
            return codeBytes
              (0x10000 + (n - 0xD800) * 0x400 +
                (low - 0xDC00)) ++ bytes
          else
            none
      | _ => none
    else do
      let bytes ← unitBytes? rest
      return codeBytes n ++ bytes

/- The text of some units. -/
def unitText?
    (units : List JsonUnit) :
    Option String := do
  let bytes ← unitBytes? units
  (Utf8.decode bytes).toOption

/- The text of a string. -/
def string? : JsonPart → Option String
| string units => unitText? units
| _ => none

/- The number of a digit sequence. -/
def digitsValue
    (digits : List UInt8) :
    Nat :=
  digits.foldl (fun n b => 10 * n + (b.toNat - '0'.toNat)) 0

/- A number written with digits only. -/
def natural? : JsonPart → Option Nat
| number text =>
    if text.all isDigitByte then
      some (digitsValue text)
    else
      none
| _ => none

/- The value unless it is null. -/
def nonNull? : JsonPart → Option JsonPart
| null => none
| part => some part

/- The members of an object with their keys as text. -/
def textMembers?
    (members : List (List JsonUnit × JsonPart)) :
    Option (List (String × JsonPart)) :=
  members.mapM fun (key, value) => do
    let text ← unitText? key
    return (text, value)

/- The member of a name, which may not be there twice. -/
def member?
    (members : List (String × JsonPart))
    (name : String) :
    Option (Option JsonPart) :=
  match members.filter (fun m => m.1 == name) with
  | [] => some none
  | [m] => some (some m.2)
  | _ => none

/-
  The parts of a record, from an object by their names or from
  an array by their order. An array may leave out parts at its
  end as long as it has `least` of them.
-/
def fields?
    (names : List String)
    (least : Nat) :
    JsonPart → Option (List (Option JsonPart))
| object members => do
    let members ← textMembers? members
    names.mapM (member? members)
| array elements =>
    if least ≤ elements.length ∧
        elements.length ≤ names.length then
      some
        (elements.map some ++
          List.replicate (names.length - elements.length) none)
    else
      none
| _ => none

/-
  The name of a variant without content: a string, or an
  object that binds it to null.
-/
def variant? : JsonPart → Option String
| string units => unitText? units
| object [(key, null)] => unitText? key
| _ => none

end JsonPart

end TagWire
