import TagWire.Proofs.Generated.Syntax
import TagWire.Value.Basic
import TagWire.Wire.Item

/-
  The data that generated code works on, what is asked of it
  by tests and conversions, and what a program declares about
  it. Where the code would not be accepted there is nothing.

  Main declarations:
    * `Generated.Datum`
    * `Generated.Program.HasType`
    * `Generated.Program.default?`
    * `Generated.Program.number?`
    * `Generated.Program.variant?`
-/

------------------------------------------------------------
-- Data
------------------------------------------------------------

namespace TagWire

namespace Generated

/-
  Data of the generated types, and what there is besides only
  inside of functions: tags, sizes, bytes and tests.
-/
inductive Datum where
| number (kind : NumKind) (word : kind.Word)
| string (text : String)
| variant (type ident : String)
| list (elements : List Datum)
| map (entries : List (MapKey × Datum))
| struct (type : String) (fields : List (String × Datum))
| absent
| present (d : Datum)
| tag (seq : Option UInt8)
| size (n : Nat)
| bytes (data : List UInt8)
| bool (b : Bool)
| unit
deriving Repr

namespace Datum

/- The data that the key of a map is. -/
def ofKey : MapKey → Datum
| .int k word => number (.int k) word
| .string text => string text

/- The key of a map that some data is. -/
def key? : Datum → Option MapKey
| number (.int k) word => some (.int k word)
| string text => some (.string text)
| _ => none

@[simp]
theorem key?_ofKey
    (key : MapKey) :
    (ofKey key).key? = some key := by
  cases key <;> rfl

/- Whether a string, a list or a map is empty. -/
def isEmpty? : Datum → Option Bool
| string text => some text.isEmpty
| list elements => some elements.isEmpty
| map entries => some entries.isEmpty
| _ => none

/- How many elements, entries or bytes there are. -/
def len? : Datum → Option Nat
| list elements => some elements.length
| map entries => some entries.length
| bytes data => some data.length
| _ => none

/- Whether an integer differs from zero. -/
def isNotZero? : Datum → Option Bool
| number (.int k) word => some (k.value word ≠ 0)
| _ => none

/- Whether what a float stands for differs from zero. -/
def differsFromZero : FloatValue → Bool
| .finite _ mantissa _ => mantissa != 0
| _ => true

/- Whether a float differs from zero. -/
def isNotZeroPoint? : Datum → Option Bool
| number (.float k) word =>
    some (differsFromZero (k.decode word))
| _ => none

/- Whether a tag is a given one. -/
def isTag?
    (seq : UInt8) :
    Datum → Option Bool
| tag seq? => some (seq? = some seq)
| _ => none

/- The negation of a test. -/
def negate? : Datum → Option Bool
| bool b => some !b
| _ => none

/- The lesser one of two sizes. -/
def min? : Datum → Datum → Option Nat
| size n, size n' => some (min n n')
| _, _ => none

/- The field of a name. -/
def field?
    (ident : String) :
    Datum → Option Datum
| struct _ fields => fields.lookup ident
| _ => none

/- The same with another value in the field of a name. -/
def setField?
    (d : Datum)
    (ident : String)
    (value : Datum) :
    Option Datum :=
  match d with
  | struct type fields =>
      if ident ∈ fields.map Prod.fst then
        some
          (struct type
            (fields.map fun (i, old) =>
              (i, if i = ident then value else old)))
      else
        none
  | _ => none

/- A list with one more element at its end. -/
def push?
    (d : Datum)
    (element : Datum) :
    Option Datum :=
  match d with
  | list elements => some (list (elements ++ [element]))
  | _ => none

/- A map in which a key has a value. -/
def insert?
    (d : Datum)
    (key value : Datum) :
    Option Datum :=
  match d with
  | map entries =>
      key.key?.map fun k => map (Keyed.insert k value entries)
  | _ => none

/-
  What each round of a loop over some data is given: an
  element, or a key and a value.
-/
def rounds? : Nat → Datum → Option (List (List Datum))
| 1, list elements => some (elements.map fun d => [d])
| 2, map entries =>
    some (entries.map fun (key, d) => [ofKey key, d])
| _, _ => none

end Datum

end Generated

end TagWire

------------------------------------------------------------
-- Declarations
------------------------------------------------------------

namespace TagWire

namespace Generated

namespace Program

/- The enum of a name. -/
def enum?
    (p : Program)
    (ident : String) :
    Option EnumItem :=
  p.enums.find? (·.ident == ident)

/- The message of a name. -/
def message?
    (p : Program)
    (ident : String) :
    Option MessageItem :=
  p.messages.find? (·.data.ident == ident)

/- The routines of a name. -/
def routine?
    (p : Program)
    (ident : String) :
    Option RoutineItem :=
  p.routines.find? (·.ident == ident)

/- The default of an enum, if the compiler is asked for it. -/
def defaultVariant?
    (e : EnumItem) :
    Option Datum :=
  if "Default" ∈ e.attributes.derives then
    (e.variants.find? (·.isDefault)).map fun v =>
      .variant e.ident v.ident
  else
    none

/- The default of a type of fields. -/
def default?
    (p : Program) :
    CodeType → Option Datum
| .number kind => some (.number kind 0)
| .string => some (.string "")
| .named ident => (p.enum? ident).bind defaultVariant?
| .list _ => some (.list [])
| .map _ _ => some (.map [])
| .option _ => some .absent
| .boxed inner => p.default? inner

/- The default of the data of a message. -/
def defaultStruct?
    (p : Program)
    (ident : String) :
    Option Datum := do
  let m ← p.message? ident
  if "Default" ∈ m.data.attributes.derives then
    let fields ←
      m.data.fields.mapM fun (name, type) =>
        (p.default? type).map fun d => (name, d)
    return .struct ident fields
  else
    none

/- The number of a variant, as an integer of four bytes. -/
def number?
    (p : Program) :
    Datum → Option Datum
| .variant type ident => do
    let e ← p.enum? type
    let v ← e.variants.find? (·.ident == ident)
    return .number (.int .uint32) (BitVec.ofNat _ v.number)
| _ => none

/- The variant of a number, or the error that there is none. -/
def variant?
    (p : Program)
    (type : String) :
    Datum → Option (Except WireError Datum)
| .number (.int .uint32) word => do
    let e ← p.enum? type
    let n ← e.numbering
    match n.arms.lookup (BitVec.toNat word) with
    | some ident => return .ok (.variant type ident)
    | none =>
        return .error
          (.invalidEnumValue n.reported (BitVec.toNat word))
| _ => none

end Program

end Generated

end TagWire

------------------------------------------------------------
-- Types of Data
------------------------------------------------------------

namespace TagWire

namespace Generated

/- What data is of a type, by what a program declares. -/
inductive Program.HasType
    (p : Program) :
    CodeType → Datum → Prop
| number
    {kind : NumKind}
    {word : kind.Word} :
    HasType p (.number kind) (.number kind word)
| string
    {text : String} :
    HasType p .string (.string text)
| variant
    {ident : String}
    {e : EnumItem}
    {v : Variant}
    (hEnum : p.enum? ident = some e)
    (hVariant : v ∈ e.variants) :
    HasType p (.named ident) (.variant ident v.ident)
| struct
    {ident : String}
    {m : MessageItem}
    {get : String → Datum}
    (hMessage : p.message? ident = some m)
    (hFields : ∀ f ∈ m.data.fields, HasType p f.2 (get f.1)) :
    HasType p (.named ident)
      (.struct ident
        (m.data.fields.map fun f => (f.1, get f.1)))
| list
    {element : CodeType}
    {elements : List Datum}
    (hElements : ∀ d ∈ elements, HasType p element d) :
    HasType p (.list element) (.list elements)
| map
    {key value : CodeType}
    {entries : List (MapKey × Datum)}
    (hAscending : Keyed.Ascending entries)
    (hKeys : ∀ e ∈ entries, HasType p key (.ofKey e.1))
    (hValues : ∀ e ∈ entries, HasType p value e.2) :
    HasType p (.map key value) (.map entries)
| absent
    {inner : CodeType} :
    HasType p (.option inner) .absent
| present
    {inner : CodeType}
    {d : Datum}
    (hInner : HasType p inner d) :
    HasType p (.option inner) (.present d)
| boxed
    {inner : CodeType}
    {d : Datum}
    (hInner : HasType p inner d) :
    HasType p (.boxed inner) d

end Generated

end TagWire
