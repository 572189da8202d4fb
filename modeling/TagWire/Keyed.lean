/-
  This file defines lists of pairs that are kept in ascending
  order of their keys, each key once. Equal contents make
  equal lists.

  Key definitions include:
    * `Keyed.insert`
    * `Keyed.ofList`
    * `Keyed.Ascending`

  Correctness is proven by:
    * `Keyed.ascending_insert`
    * `Keyed.ascending_ofList`
-/

namespace TagWire

namespace Keyed

variable {κ α : Type} [Ord κ]

/- Bind a key, in place of what it was bound to before. -/
def insert
    (key : κ)
    (value : α) :
    List (κ × α) → List (κ × α)
| [] => [(key, value)]
| (k, v) :: rest =>
    match compare key k with
    | .lt => (key, value) :: (k, v) :: rest
    | .eq => (key, value) :: rest
    | .gt => (k, v) :: insert key value rest

/- Bind some keys in turn, so that the last binding stays. -/
def ofList
    (bindings : List (κ × α)) :
    List (κ × α) :=
  bindings.foldl (fun acc b => insert b.1 b.2 acc) []

/- The keys of a list ascend. -/
def Ascending
    (entries : List (κ × α)) : Prop :=
  entries.Pairwise (fun a b => compare a.1 b.1 = .lt)

instance
    (entries : List (κ × α)) :
    Decidable (Ascending entries) := by
  unfold Ascending
  infer_instance

/- Binding adds no key but the one bound. -/
theorem mem_keys_insert
    {key k : κ}
    {value : α}
    {entries : List (κ × α)}
    (h : k ∈ (insert key value entries).map Prod.fst) :
    k = key ∨ k ∈ entries.map Prod.fst := by
  induction entries with
  | nil => simpa [insert] using h
  | cons e rest ih =>
      obtain ⟨k', v'⟩ := e
      unfold insert at h
      split at h
      · simpa using h
      · simp only [List.map_cons, List.mem_cons] at h ⊢
        exact h.imp id Or.inr
      · simp only [List.map_cons, List.mem_cons] at h ⊢
        rcases h with h | h
        · exact Or.inr (Or.inl h)
        · exact (ih h).imp id Or.inr

/- Binding a key keeps the keys ascending. -/
theorem ascending_insert
    [Std.TransOrd κ]
    [Std.LawfulEqOrd κ]
    {key : κ}
    {value : α}
    {entries : List (κ × α)}
    (h : Ascending entries) :
    Ascending (insert key value entries) := by
  induction entries with
  | nil => simp [insert, Ascending]
  | cons e rest ih =>
      obtain ⟨k, v⟩ := e
      have hHead := (List.pairwise_cons.mp h).1
      have hRest := (List.pairwise_cons.mp h).2
      unfold insert
      split
      · next hLt =>
          refine List.pairwise_cons.mpr ⟨?_, h⟩
          intro b hb
          rcases List.mem_cons.mp hb with rfl | hb
          · exact hLt
          · exact Std.TransCmp.lt_trans hLt (hHead b hb)
      · next hEq =>
          have hKey := Std.LawfulEqCmp.eq_of_compare hEq
          subst hKey
          exact List.pairwise_cons.mpr ⟨hHead, hRest⟩
      · next hGt =>
          refine List.pairwise_cons.mpr ⟨?_, ih hRest⟩
          intro b hb
          have hMem := mem_keys_insert (List.mem_map_of_mem hb)
          rcases hMem with hKey | hMem
          · rw [hKey]
            exact Std.OrientedCmp.gt_iff_lt.mp hGt
          · obtain ⟨c, hc, hKey⟩ := List.mem_map.mp hMem
            rw [← hKey]
            exact hHead c hc

/- A list built by binding has ascending keys. -/
theorem ascending_ofList
    [Std.TransOrd κ]
    [Std.LawfulEqOrd κ]
    (bindings : List (κ × α)) :
    Ascending (ofList bindings) := by
  have hFold :
      ∀ acc : List (κ × α),
        Ascending acc →
          Ascending
            (bindings.foldl
              (fun acc b => insert b.1 b.2 acc) acc) := by
    induction bindings with
    | nil => exact fun _ h => h
    | cons b rest ih =>
        intro acc h
        exact ih (insert b.1 b.2 acc) (ascending_insert h)
  exact hFold [] (by simp [Ascending])

end Keyed

end TagWire
