import TagWire.Keyed

/-
  This file defines maps as a type of their own: bindings
  together with the proof that their keys ascend.

  Key definitions include:
    * `Table`
    * `Table.ofList`
    * `Table.get?`

  Correctness is proven by:
    * `Table.eq_of_entries`
-/

namespace TagWire

/- A map. Its entries stand in ascending order of keys. -/
structure Table (κ α : Type) [Ord κ] where
  entries : List (κ × α)
  ascending : Keyed.Ascending entries
deriving DecidableEq, Repr

namespace Table

variable {κ α : Type} [Ord κ]

/- Two maps with the same entries are the same. -/
theorem eq_of_entries
    {s t : Table κ α}
    (h : s.entries = t.entries) :
    s = t := by
  cases s
  cases t
  cases h
  rfl

/- The map without entries. -/
def empty : Table κ α :=
  ⟨[], by simp [Keyed.Ascending]⟩

instance : Inhabited (Table κ α) :=
  ⟨empty⟩

/- Bind some keys in turn, so that the last binding stays. -/
def ofList
    [Std.TransOrd κ]
    [Std.LawfulEqOrd κ]
    (bindings : List (κ × α)) :
    Table κ α :=
  ⟨Keyed.ofList bindings, Keyed.ascending_ofList bindings⟩

/- Bind a key, in place of what it was bound to before. -/
def insert
    [Std.TransOrd κ]
    [Std.LawfulEqOrd κ]
    (key : κ)
    (value : α)
    (t : Table κ α) :
    Table κ α :=
  ⟨Keyed.insert key value t.entries,
    Keyed.ascending_insert t.ascending⟩

/- What a key is bound to. -/
def get?
    [BEq κ]
    (t : Table κ α)
    (key : κ) :
    Option α :=
  t.entries.lookup key

/- The keys, in ascending order. -/
def keys
    (t : Table κ α) :
    List κ :=
  t.entries.map Prod.fst

end Table

end TagWire
