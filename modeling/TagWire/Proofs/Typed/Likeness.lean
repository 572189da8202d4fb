import TagWire.Proofs.Keyed
import TagWire.Typed.Table
import TagWire.Value.Basic

/-
  What values stand for in types of their own. A value of a
  schema's type stands for a number, a string, a list or a
  message of the type generated for it: both have the same
  parts. A field that a message leaves out stands for the zero
  of its type.

  Main declarations:
    * `Likeness`
    * `Likeness.OrZero`
    * `Likeness.message`
    * `Likeness.Faithful`
-/

------------------------------------------------------------
-- Likenesses
------------------------------------------------------------

namespace TagWire

/- Which values of a type are like which values of any type. -/
abbrev Likeness (α : Type) : Type :=
  Value → α → Prop

namespace Likeness

variable {κ α μ : Type}

/- Numbers have the same kind and the same bits. -/
def number
    (k : NumKind) :
    Likeness k.Word :=
  fun v word => v = .number k word

/- Strings have the same characters. -/
def string : Likeness String :=
  fun v text => v = .string text

/- Values of an enum have the same variant. -/
def enum
    (name : String)
    (variant : α → String) :
    Likeness α :=
  fun v a => v = .enum name (variant a)

/- Lists have elements that are alike one by one. -/
def list
    (R : Likeness α) :
    Likeness (List α) :=
  fun v as => ∃ vs, v = .list vs ∧ List.Forall₂ R vs as

/- Maps have the same keys, and alike values for them. -/
def map
    [Ord κ]
    (key : κ → MapKey)
    (R : Likeness α) :
    Likeness (Table κ α) :=
  fun v table =>
    ∃ entries, v = .map entries ∧
      Keyed.EntriesMatch (fun k k' => k = key k') R entries
        table.entries

/- No value stands for nothing. -/
def option
    (R : Likeness α) :
    Likeness (Option α) :=
  fun v a? => ∃ a, a? = some a ∧ R v a

/- What is left out stands for zero. -/
def OrZero
    (R : Likeness α)
    (zero : α) :
    Option Value → α → Prop
| some v, a => R v a
| none, a => a = zero

/- How a field of a message is held in a structure. -/
structure Slot (μ : Type) where
  name : String
  Holds : Option Value → μ → Prop

/- A field that is alike, or left out where it is zero. -/
def Slot.of
    (name : String)
    (R : Likeness α)
    (zero : α)
    (get : μ → α) :
    Slot μ where
  name := name
  Holds v? x := R.OrZero zero v? (get x)

/-
  A message has no fields but those of the structure, and each
  one that it has is like the one there.
-/
def message
    (name : String)
    (slots : List (Slot μ)) :
    Likeness μ :=
  fun v x =>
    ∃ fields, v = .message name fields ∧
      Keyed.Ascending fields ∧
      (∀ e ∈ fields, e.1 ∈ slots.map Slot.name) ∧
      ∀ l ∈ slots, l.Holds (fields.lookup l.name) x

end Likeness

end TagWire

------------------------------------------------------------
-- Faithful Likenesses
------------------------------------------------------------

namespace TagWire

namespace Likeness

open Relator

variable {κ α β : Type}

/-
  A likeness is faithful when everything has something like
  it, and nothing is like two different things.
-/
structure Faithful
    (R : β → α → Prop) : Prop where
  total : RightTotal R
  unique : RightUnique R

theorem faithful_number
    (k : NumKind) :
    Faithful (number k) where
  total _ := ⟨_, rfl⟩
  unique := by
    intro v a b h hSame
    rcases h with rfl
    cases hSame
    rfl

theorem faithful_string :
    Faithful string where
  total _ := ⟨_, rfl⟩
  unique := by
    intro v a b h hSame
    rcases h with rfl
    cases hSame
    rfl

theorem faithful_enum
    (name : String)
    {variant : α → String}
    (hVariant : Function.Injective variant) :
    Faithful (enum name variant) where
  total _ := ⟨_, rfl⟩
  unique := by
    intro v a b h hSame
    rcases h with rfl
    apply hVariant
    injection hSame

/- If each element has something like it, the list has. -/
theorem exists_forall₂
    {R : β → α → Prop}
    {as : List α}
    (h : ∀ a ∈ as, ∃ b, R b a) :
    ∃ bs, List.Forall₂ R bs as := by
  induction as with
  | nil => exact ⟨[], .nil⟩
  | cons a rest ih =>
      rcases List.forall_mem_cons.mp h with ⟨⟨b, hb⟩, hRest⟩
      rcases ih hRest with ⟨bs, hBs⟩
      exact ⟨b :: bs, .cons hb hBs⟩

/- What elements are like in one way, they are in another. -/
theorem forall₂_imp_of_mem
    {R S : β → α → Prop}
    {bs : List β}
    {as : List α}
    (hImp : ∀ a ∈ as, ∀ b, R b a → S b a)
    (h : List.Forall₂ R bs as) :
    List.Forall₂ S bs as := by
  induction h with
  | nil => exact .nil
  | cons hHead _ ih =>
      rcases List.forall_mem_cons.mp hImp with
        ⟨hFirst, hOthers⟩
      exact .cons (hFirst _ hHead) (ih hOthers)

/- The same for a field with a list. -/
theorem orZero_list_imp_of_mem
    {R S : Likeness α}
    {v? : Option Value}
    {as : List α}
    (hImp : ∀ a ∈ as, ∀ v, R v a → S v a)
    (h : OrZero R.list [] v? as) :
    OrZero S.list [] v? as := by
  cases v? with
  | none => exact h
  | some v =>
      rcases h with ⟨vs, rfl, hElements⟩
      exact ⟨vs, rfl, forall₂_imp_of_mem hImp hElements⟩

/- Lists of like things are like one by one. -/
theorem Faithful.forall₂
    {R : β → α → Prop}
    (h : Faithful R) :
    Faithful (List.Forall₂ R) where
  total _ := exists_forall₂ fun a _ => h.total a
  unique := h.unique.forall₂

theorem Faithful.list
    {R : Likeness α}
    (h : Faithful R) :
    Faithful R.list where
  total as := by
    rcases h.forall₂.total as with ⟨vs, hElements⟩
    exact ⟨.list vs, vs, rfl, hElements⟩
  unique := by
    intro _ as bs hLike hLike'
    rcases hLike with ⟨vs, rfl, hAs⟩
    rcases hLike' with ⟨_, hSame, hBs⟩
    cases hSame
    exact h.forall₂.unique hAs hBs

/- Keys of their own keep entries apart. -/
theorem Faithful.entry
    {key : κ → MapKey}
    (hKey : Function.Injective key)
    {R : Likeness α}
    (h : Faithful R) :
    Faithful fun (e : MapKey × Value) (e' : κ × α) =>
      e.1 = key e'.1 ∧ R e.2 e'.2 where
  total e' := by
    rcases h.total e'.2 with ⟨v, hv⟩
    exact ⟨(key e'.1, v), rfl, hv⟩
  unique := by
    intro e entry entry' hLike hLike'
    rcases entry with ⟨k, a⟩
    rcases entry' with ⟨k', a'⟩
    rcases hLike with ⟨hk, ha⟩
    rcases hLike' with ⟨hk', ha'⟩
    exact Prod.ext (hKey (hk.symm.trans hk')) (h.unique ha ha')

theorem Faithful.map
    [Ord κ]
    {key : κ → MapKey}
    (hKey : Function.Injective key)
    {R : Likeness α}
    (h : Faithful R) :
    Faithful (map key R) where
  total table := by
    rcases (h.entry hKey).forall₂.total table.entries with
      ⟨entries, hMatch⟩
    exact ⟨.map entries, entries, rfl, hMatch⟩
  unique := by
    intro _ t t' hLike hLike'
    rcases hLike with ⟨entries, rfl, hMatch⟩
    rcases hLike' with ⟨_, hSame, hMatch'⟩
    cases hSame
    exact Table.eq_of_entries
      ((h.entry hKey).forall₂.unique hMatch hMatch')

/- What has values like it has them in fields. -/
theorem Faithful.orZero
    {R : Likeness α}
    (h : Faithful R)
    (zero : α) :
    Faithful (R.OrZero zero) where
  total a := by
    rcases h.total a with ⟨v, hv⟩
    exact ⟨some v, hv⟩
  unique := by
    intro v? a b ha hb
    rcases v? with _ | v
    · exact ha.trans hb.symm
    · exact h.unique ha hb

/- A field that is left out is like nothing. -/
theorem Faithful.orZero_option
    {R : Likeness α}
    (h : Faithful R) :
    Faithful (R.option.OrZero none) where
  total := by
    intro a?
    rcases a? with _ | a
    · exact ⟨none, rfl⟩
    · rcases h.total a with ⟨v, hv⟩
      exact ⟨some v, a, rfl, hv⟩
  unique := by
    intro v? _ _ hx hy
    rcases v? with _ | v
    · exact hx.trans hy.symm
    · rcases hx with ⟨a, rfl, ha⟩
      rcases hy with ⟨b, rfl, hb⟩
      exact congrArg some (h.unique ha hb)

end Likeness

end TagWire
