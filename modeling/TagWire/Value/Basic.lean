import TagWire.Keyed
import TagWire.Wire.Float

/-
  This file defines the values that messages are made of. The
  entries of a map and the fields of a message are kept in
  ascending order, so that equal contents are equal values.

  Key definitions include:
    * `MapKey`
    * `Value`
    * `Value.get?`
    * `Value.set`
    * `Value.isEqual`

  Correctness is proven by:
    * `MapKey.eq_of_order`
-/

namespace TagWire

------------------------------------------------------------
-- Map Keys
------------------------------------------------------------

namespace IntKind

/- The place of an integer kind among all of them. -/
def rank : IntKind → Nat
| uint8 => 0
| uint16 => 1
| uint32 => 2
| uint64 => 3
| int8 => 4
| int16 => 5
| int32 => 6
| int64 => 7

/- Integer kinds have different places. -/
theorem rank_injective
    {k k' : IntKind}
    (h : k.rank = k'.rank) :
    k = k' := by
  cases k <;> cases k' <;> first | rfl | cases h

end IntKind

/- What a map can be keyed by: an integer or a string. -/
inductive MapKey where
| int (kind : IntKind) (word : kind.Word)
| string (text : String)
deriving DecidableEq, Repr

namespace MapKey

/- The place of the sort of a key. Strings come last. -/
def rank : MapKey → Nat
| int kind _ => kind.rank
| string _ => 8

/- The integer that a key is, if it is one. -/
def magnitude : MapKey → Int
| int kind word => kind.value word
| string _ => 0

/- The text that a key is, if it is one. -/
def text : MapKey → String
| int _ _ => ""
| string text => text

/-
  Keys of different sorts are ordered by sort, integers by
  value, and strings by their characters.
-/
def order
    (a b : MapKey) :
    Ordering :=
  (compare a.rank b.rank).then
    ((compare a.magnitude b.magnitude).then
      (compare a.text b.text))

instance : Ord MapKey :=
  ⟨order⟩

private theorem rank_int_ne_string
    (kind : IntKind) :
    kind.rank ≠ 8 := by
  cases kind <;> decide

/- Keys that neither precedes are the same key. -/
theorem eq_of_order
    {a b : MapKey}
    (h : order a b = .eq) :
    a = b := by
  simp only [order, Ordering.then_eq_eq] at h
  obtain ⟨hRank, hMagnitude, hText⟩ := h
  have hRank := Std.LawfulEqCmp.eq_of_compare hRank
  have hMagnitude := Std.LawfulEqCmp.eq_of_compare hMagnitude
  have hText := Std.LawfulEqCmp.eq_of_compare hText
  cases a with
  | int kind word =>
      cases b with
      | int kind' word' =>
          cases IntKind.rank_injective hRank
          rw [IntKind.value_injective hMagnitude]
      | string text' =>
          exact absurd hRank (rank_int_ne_string kind)
  | string text =>
      cases b with
      | int kind' word' =>
          exact absurd hRank.symm (rank_int_ne_string kind')
      | string text' =>
          rw [show text = text' from hText]

instance : Std.LawfulEqOrd MapKey where
  compare_self {a} := by
    show order a a = .eq
    simp [order]
  eq_of_compare h := eq_of_order h

instance : Std.TransOrd MapKey where
  eq_swap {a b} := by
    show order a b = (order b a).swap
    simp only [order, Ordering.swap_then]
    rw [← Std.OrientedCmp.eq_swap, ← Std.OrientedCmp.eq_swap,
      ← Std.OrientedCmp.eq_swap]
  isLE_trans {a b c} hab hbc := by
    change (order a b).isLE = true at hab
    change (order b c).isLE = true at hbc
    show (order a c).isLE = true
    have hLex :
        ∀ x y : MapKey,
          order x y =
            compareLex (compareOn rank)
              (compareLex (compareOn magnitude)
                (compareOn text)) x y := by
      intro x y
      rfl
    rw [hLex] at hab hbc ⊢
    exact Std.TransCmp.isLE_trans hab hbc

end MapKey

------------------------------------------------------------
-- Values
------------------------------------------------------------

/-
  A value of any type. Numbers are their bits, so that every
  bit is kept. Enum values and messages carry the name of
  their declaration.
-/
inductive Value where
| number (kind : NumKind) (word : kind.Word)
| string (text : String)
| enum (name : String) (variant : String)
| list (elements : List Value)
| map (entries : List (MapKey × Value))
| message (name : String) (fields : List (String × Value))
deriving Repr

namespace Value

/- The text of a string or the variant of an enum value. -/
def asString : Value → String
| string text => text
| enum _ variant => variant
| _ => ""

/- The elements of a list. -/
def asList : Value → List Value
| list elements => elements
| _ => []

/- A field of a message. -/
def get? : Value → String → Option Value
| message _ fields, name => fields.lookup name
| _, _ => none

/- A message with a field set. Other values stay the same. -/
def set
    (v : Value)
    (name : String)
    (field : Value) :
    Value :=
  match v with
  | message m fields => message m (Keyed.insert name field fields)
  | v => v

------------------------------------------------------------
-- Equality of Contents
------------------------------------------------------------

/- Whether two numbers are of one kind and equal. -/
def isEqualNumber
    (k : NumKind)
    (v : k.Word)
    (k' : NumKind)
    (w : k'.Word) :
    Bool :=
  if h : k' = k then
    match k, v, h ▸ w with
    | .int _, v, w => v == w
    | .float f, v, w => f.isEqual v w
  else
    false

mutual

/-
  Whether two values are equal, floats being compared as
  numbers.
-/
def isEqual : Value → Value → Bool
| number k v, number k' w => isEqualNumber k v k' w
| string s, string t => s == t
| enum n v, enum n' v' => n == n' && v == v'
| list vs, list ws => isEqualElements vs ws
| map vs, map ws => isEqualEntries vs ws
| message n vs, message n' ws =>
    n == n' && isEqualFields vs ws
| _, _ => false

/- Whether two lists have equal elements. -/
def isEqualElements : List Value → List Value → Bool
| [], [] => true
| v :: vs, w :: ws => isEqual v w && isEqualElements vs ws
| _, _ => false

/- Whether two maps have equal entries. -/
def isEqualEntries :
    List (MapKey × Value) → List (MapKey × Value) → Bool
| [], [] => true
| (k, v) :: vs, (l, w) :: ws =>
    k == l && isEqual v w && isEqualEntries vs ws
| _, _ => false

/- Whether two messages have equal fields. -/
def isEqualFields :
    List (String × Value) → List (String × Value) → Bool
| [], [] => true
| (k, v) :: vs, (l, w) :: ws =>
    k == l && isEqual v w && isEqualFields vs ws
| _, _ => false

end

end Value

end TagWire
