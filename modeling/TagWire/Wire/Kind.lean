/-
  This file defines the kinds of scalar that a schema can
  declare: fixed-width integers and floats, and strings.

  Key definitions include:
    * `IntKind`
    * `FloatKind`
    * `NumKind`
    * `NumKind.Word`
    * `IntKind.value`
    * `ScalarKind`
    * `ScalarKind.ofName?`

  Correctness is proven by:
    * `IntKind.word?_eq_some_iff`
    * `ScalarKind.ofName?_eq_some_iff`
-/

namespace TagWire

------------------------------------------------------------
-- Numbers
------------------------------------------------------------

/- The kinds of integer, unsigned ones first. -/
inductive IntKind where
| uint8
| uint16
| uint32
| uint64
| int8
| int16
| int32
| int64
deriving DecidableEq, Repr

namespace IntKind

/- The number of bytes of an integer. -/
def size : IntKind → Nat
| uint8 | int8 => 1
| uint16 | int16 => 2
| uint32 | int32 => 4
| uint64 | int64 => 8

/- Whether the highest bit counts negatively. -/
def isSigned : IntKind → Bool
| uint8 | uint16 | uint32 | uint64 => false
| int8 | int16 | int32 | int64 => true

/- The name of an integer kind in a schema. -/
def name : IntKind → String
| uint8 => "uint8"
| uint16 => "uint16"
| uint32 => "uint32"
| uint64 => "uint64"
| int8 => "int8"
| int16 => "int16"
| int32 => "int32"
| int64 => "int64"

/- The bits of one integer. -/
abbrev Word (k : IntKind) : Type :=
  BitVec (8 * k.size)

/- The integer that some bits stand for. -/
def value
    (k : IntKind)
    (w : k.Word) :
    Int :=
  if k.isSigned then w.toInt else w.toNat

/- The least integer of a kind. -/
def least
    (k : IntKind) :
    Int :=
  if k.isSigned then -(Nat.pow 2 (8 * k.size - 1) : Nat) else 0

/- The greatest integer of a kind. -/
def greatest
    (k : IntKind) :
    Int :=
  if k.isSigned then
    (Nat.pow 2 (8 * k.size - 1) : Nat) - 1
  else
    (Nat.pow 2 (8 * k.size) : Nat) - 1

/- The bits of an integer, if the kind has it. -/
def word?
    (k : IntKind)
    (n : Int) :
    Option k.Word :=
  if k.least ≤ n ∧ n ≤ k.greatest then
    some (BitVec.ofInt (8 * k.size) n)
  else
    none

/- The integer that some bits stand for tells the bits. -/
theorem value_injective
    {k : IntKind}
    {v w : k.Word}
    (h : k.value v = k.value w) :
    v = w := by
  unfold value at h
  split at h
  · exact BitVec.eq_of_toInt_eq h
  · exact BitVec.eq_of_toNat_eq (Int.ofNat_inj.mp h)

/- An integer of a kind is the value of its bits. -/
theorem value_ofInt
    {k : IntKind}
    {n : Int}
    (hLeast : k.least ≤ n)
    (hGreatest : n ≤ k.greatest) :
    k.value (BitVec.ofInt (8 * k.size) n) = n := by
  have hSize : 0 < 8 * k.size := by
    cases k <;> decide
  unfold least at hLeast
  unfold greatest at hGreatest
  unfold value
  cases hSigned : k.isSigned with
  | true =>
      simp only [hSigned, if_true, Nat.pow_eq,
        Int.natCast_pow, Int.cast_ofNat_Int]
        at hLeast hGreatest ⊢
      exact BitVec.toInt_ofInt_eq_self hSize hLeast (by omega)
  | false =>
      simp only [hSigned, Bool.false_eq_true, if_false,
        Nat.pow_eq] at hLeast hGreatest ⊢
      have hLt : n < (2 ^ (8 * k.size) : Nat) := by omega
      rw [BitVec.toNat_ofInt, Int.emod_eq_of_lt hLeast hLt,
        Int.toNat_of_nonneg hLeast]

/- The value of some bits is an integer of their kind. -/
theorem value_mem
    {k : IntKind}
    (w : k.Word) :
    k.least ≤ k.value w ∧ k.value w ≤ k.greatest := by
  unfold least greatest value
  cases k.isSigned with
  | true =>
      simp only [if_true, Nat.pow_eq, Int.natCast_pow,
        Int.cast_ofNat_Int]
      have hLeast := BitVec.le_toInt w
      have hGreatest := BitVec.toInt_lt (x := w)
      exact ⟨hLeast, by omega⟩
  | false =>
      simp only [Bool.false_eq_true, if_false, Nat.pow_eq]
      have hLt := w.isLt
      omega

/- Each integer of a kind has one word, whose value it is. -/
theorem word?_eq_some_iff
    {k : IntKind}
    {n : Int}
    {w : k.Word} :
    k.word? n = some w ↔ k.value w = n := by
  unfold word?
  constructor
  · intro h
    split at h
    · next hRange =>
        cases h
        exact value_ofInt hRange.1 hRange.2
    · cases h
  · intro h
    subst h
    have hRange := value_mem w
    rw [if_pos hRange,
      value_injective (value_ofInt hRange.1 hRange.2)]

end IntKind

/- The kinds of float. -/
inductive FloatKind where
| float32
| float64
deriving DecidableEq, Repr

namespace FloatKind

/- The number of bytes of a float. -/
def size : FloatKind → Nat
| float32 => 4
| float64 => 8

/- The name of a float kind in a schema. -/
def name : FloatKind → String
| float32 => "float32"
| float64 => "float64"

/- The bits of one float. -/
abbrev Word (k : FloatKind) : Type :=
  BitVec (8 * k.size)

/-
  A float is zero when no bit is set except perhaps the sign,
  the highest one.
-/
def isZero
    (k : FloatKind)
    (w : k.Word) :
    Bool :=
  w.toNat % Nat.pow 2 (8 * k.size - 1) == 0

end FloatKind

/- The kinds of number. -/
inductive NumKind where
| int (k : IntKind)
| float (k : FloatKind)
deriving DecidableEq, Repr

namespace NumKind

/- The number of bytes of a number. -/
def size : NumKind → Nat
| int k => k.size
| float k => k.size

/- The name of a number kind in a schema. -/
def name : NumKind → String
| int k => k.name
| float k => k.name

/- The bits of one number. -/
abbrev Word (k : NumKind) : Type :=
  BitVec (8 * k.size)

/- Whether some bits are the number zero, of either sign. -/
def isZero :
    (k : NumKind) → k.Word → Bool
| int k, w => w == (0 : k.Word)
| float k, w => k.isZero w

end NumKind

------------------------------------------------------------
-- Scalars
------------------------------------------------------------

/- The kinds of scalar. -/
inductive ScalarKind where
| num (k : NumKind)
| string
deriving DecidableEq, Repr

namespace ScalarKind

/- The name of a scalar kind in a schema. -/
def name : ScalarKind → String
| num k => k.name
| string => "string"

/- All scalar kinds. -/
def all : List ScalarKind :=
  [
    num (.int .uint8), num (.int .uint16), num (.int .uint32),
    num (.int .uint64), num (.int .int8), num (.int .int16),
    num (.int .int32), num (.int .int64), num (.float .float32),
    num (.float .float64), string
  ]

/- The scalar kind of a name. -/
def ofName?
    (text : String) :
    Option ScalarKind :=
  all.find? (fun k => k.name == text)

/- Whether a scalar is a float. -/
def isFloat : ScalarKind → Bool
| num (.float _) => true
| _ => false

/- Maps are keyed by integers and strings only. -/
def isMapKey
    (k : ScalarKind) :
    Bool :=
  !k.isFloat

/- Every scalar kind is listed. -/
theorem mem_all
    (k : ScalarKind) :
    k ∈ all := by
  match k with
  | num (.int i) => cases i <;> decide
  | num (.float f) => cases f <;> decide
  | string => decide

/- Scalar kinds have different names. -/
theorem name_injective
    {k k' : ScalarKind}
    (h : k.name = k'.name) :
    k = k' := by
  have hAll :
      ∀ a ∈ all, ∀ b ∈ all, a.name = b.name → a = b := by
    decide
  exact hAll k (mem_all k) k' (mem_all k') h

/- Looking a name up finds the kind of that name. -/
theorem ofName?_eq_some_iff
    {text : String}
    {k : ScalarKind} :
    ofName? text = some k ↔ text = k.name := by
  constructor
  · intro h
    have hName := List.find?_some h
    exact (beq_iff_eq.mp hName).symm
  · intro h
    subst h
    cases hFind : ofName? k.name with
    | none =>
        have hNone := List.find?_eq_none.mp hFind k (mem_all k)
        simp at hNone
    | some k' =>
        have hName := List.find?_some hFind
        rw [name_injective (beq_iff_eq.mp hName)]

end ScalarKind

end TagWire
