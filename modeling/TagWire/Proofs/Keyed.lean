import Mathlib.Algebra.Order.BigOperators.Group.List
import Mathlib.Algebra.Order.Ring.Nat
import Mathlib.Data.List.Forall2
import Mathlib.Data.List.Induction
import Mathlib.Data.List.Nodup
import Mathlib.Data.List.Perm.Subperm
import TagWire.Keyed

/-
  What is found in a list of pairs built by binding keys: for
  each key the value bound last. Lists with ascending keys are
  equal when the same is found in them.

  Main declarations:
    * `Keyed.lookup_filter`
    * `Keyed.lookup_ofList`
    * `Keyed.eq_of_lookup`
    * `Keyed.ofList_of_ascending`
    * `Keyed.subperm_ofList`
    * `Keyed.perm_ofList_of_nodup`
    * `Keyed.mem_ofList_iff`
    * `Keyed.eq_of_ofList_map`
    * `Keyed.entriesMatch_ofList`
-/

------------------------------------------------------------
-- Lookup
------------------------------------------------------------

namespace TagWire

namespace Keyed

variable {κ α : Type}

/- A pair with a key of its own is what its key finds. -/
theorem lookup_of_mem
    [BEq κ] [LawfulBEq κ]
    {entries : List (κ × α)}
    {key : κ}
    {value : α}
    (hNodup : (entries.map Prod.fst).Nodup)
    (h : (key, value) ∈ entries) :
    entries.lookup key = some value := by
  induction entries with
  | nil => cases h
  | cons e rest ih =>
      rcases e with ⟨k, v⟩
      simp only [List.map_cons, List.nodup_cons] at hNodup
      rcases List.mem_cons.mp h with hHead | hRest
      · cases hHead
        exact List.lookup_cons_self
      · have hNe : key ≠ k := by
          intro h
          rcases h with rfl
          exact hNodup.1 (List.mem_map_of_mem hRest)
        rw [List.lookup_cons, beq_false_of_ne hNe]
        exact ih hNodup.2 hRest

/- What a key finds stands in the list. -/
theorem mem_of_lookup
    [BEq κ] [LawfulBEq κ]
    {entries : List (κ × α)}
    {key : κ}
    {value : α}
    (h : entries.lookup key = some value) :
    (key, value) ∈ entries := by
  rcases List.lookup_eq_some_iff.mp h with
    ⟨front, back, rfl, _⟩
  simp

/- A key that is not bound finds nothing. -/
theorem lookup_eq_none_of_not_mem
    [BEq κ] [LawfulBEq κ]
    {entries : List (κ × α)}
    {key : κ}
    (h : key ∉ entries.map Prod.fst) :
    entries.lookup key = none := by
  rw [List.lookup_eq_none_iff]
  intro e he
  rw [bne_iff_ne]
  intro hSame
  rcases hSame with rfl
  exact h (List.mem_map_of_mem he)

/- A key that is kept finds what it found among more keys. -/
theorem lookup_filter
    [BEq κ] [LawfulBEq κ]
    (keeps : κ → Bool)
    {key : κ}
    (h : keeps key = true)
    (entries : List (κ × α)) :
    (entries.filter (keeps ·.1)).lookup key =
      entries.lookup key := by
  induction entries with
  | nil => rfl
  | cons e rest ih =>
      rcases e with ⟨k, v⟩
      by_cases hKept : keeps k = true
      · rw [List.filter_cons_of_pos (by exact hKept),
          List.lookup_cons, List.lookup_cons, ih]
      · have hNe : key ≠ k := fun hSame => hKept (hSame ▸ h)
        rw [List.filter_cons_of_neg (by exact hKept), ih,
          List.lookup_cons, beq_false_of_ne hNe]

end Keyed

end TagWire

------------------------------------------------------------
-- Binding
------------------------------------------------------------

namespace TagWire

namespace Keyed

variable {κ α β : Type} [Ord κ]

/- Binding a key changes what this key finds, and no other. -/
theorem lookup_insert
    [Std.LawfulEqOrd κ]
    [BEq κ] [LawfulBEq κ]
    (key k : κ)
    (value : α)
    (entries : List (κ × α)) :
    (insert key value entries).lookup k =
      if k == key then some value else entries.lookup k := by
  induction entries with
  | nil =>
      cases hKey : k == key <;>
        simp [insert, List.lookup_cons, hKey]
  | cons e rest ih =>
      rcases e with ⟨k', v'⟩
      unfold insert
      split
      · cases hKey : k == key <;>
          simp [List.lookup_cons, hKey]
      · next hEq =>
          obtain rfl := Std.LawfulEqCmp.eq_of_compare hEq
          cases hKey : k == key <;>
            simp [List.lookup_cons, hKey]
      · next hGt =>
          rw [List.lookup_cons, List.lookup_cons, ih]
          cases hHead : k == k' with
          | false => rfl
          | true =>
              have hSelf : compare k' k' = .eq :=
                Std.ReflCmp.compare_self
              have hNe : (k == key) = false := by
                apply beq_false_of_ne
                intro h
                rcases h with rfl
                rw [eq_of_beq hHead, hSelf] at hGt
                cases hGt
              rw [hNe]
              rfl

/- Each key finds what it was bound to last. -/
theorem lookup_ofList
    [Std.LawfulEqOrd κ]
    [BEq κ] [LawfulBEq κ]
    (bindings : List (κ × α))
    (k : κ) :
    (ofList bindings).lookup k =
      bindings.reverse.lookup k := by
  induction bindings using List.reverseRecOn with
  | nil => rfl
  | append_singleton front b ih =>
      have hLast :
          ofList (front ++ [b]) =
            insert b.1 b.2 (ofList front) := by
        simp [ofList]
      rw [hLast, lookup_insert, ih]
      rw [List.reverse_append, List.reverse_singleton,
        List.singleton_append, List.lookup_cons]
      cases k == b.1 <;> rfl

/- Bindings of different keys are all found. -/
theorem lookup_ofList_of_nodup
    [Std.LawfulEqOrd κ]
    [BEq κ] [LawfulBEq κ]
    {bindings : List (κ × α)}
    (h : (bindings.map Prod.fst).Nodup)
    (k : κ) :
    (ofList bindings).lookup k = bindings.lookup k := by
  rw [lookup_ofList]
  have hReverse :
      (bindings.reverse.map Prod.fst).Nodup := by
    rw [List.map_reverse]
    exact List.nodup_reverse.mpr h
  cases hFound : bindings.lookup k with
  | some value =>
      apply lookup_of_mem hReverse
      exact List.mem_reverse.mpr (mem_of_lookup hFound)
  | none =>
      rw [List.lookup_eq_none_iff] at hFound ⊢
      intro e he
      exact hFound e (List.mem_reverse.mp he)

/- Bindings of different keys all stay. -/
theorem mem_ofList_of_nodup
    [Std.LawfulEqOrd κ]
    [DecidableEq κ]
    {bindings : List (κ × α)}
    (h : (bindings.map Prod.fst).Nodup)
    {e : κ × α}
    (he : e ∈ bindings) :
    e ∈ ofList bindings := by
  apply mem_of_lookup
  rw [lookup_ofList_of_nodup h]
  exact lookup_of_mem h he

/- Everything bound is one of the bindings. -/
theorem mem_of_mem_ofList
    [Std.TransOrd κ] [Std.LawfulEqOrd κ]
    {bindings : List (κ × α)}
    {e : κ × α}
    (h : e ∈ ofList bindings) :
    e ∈ bindings := by
  have hInsert :
      ∀ (key : κ) (value : α) (entries : List (κ × α)),
        e ∈ insert key value entries →
          e = (key, value) ∨ e ∈ entries := by
    intro key value entries
    induction entries with
    | nil => simp [insert]
    | cons e' rest ih =>
        unfold insert
        split
        · exact fun h => List.mem_cons.mp h
        · intro h
          rcases List.mem_cons.mp h with h | h
          · exact Or.inl h
          · exact Or.inr (List.mem_cons_of_mem _ h)
        · intro h
          rcases List.mem_cons.mp h with h | h
          · exact Or.inr (List.mem_cons.mpr (Or.inl h))
          · exact (ih h).imp id (List.mem_cons_of_mem _)
  induction bindings using List.reverseRecOn with
  | nil => cases h
  | append_singleton front b ih =>
      simp only [ofList, List.foldl_append, List.foldl_cons,
        List.foldl_nil] at h
      rcases hInsert _ _ _ h with rfl | h
      · simp
      · exact List.mem_append_left _ (ih h)

end Keyed

end TagWire

------------------------------------------------------------
-- Ascending Keys
------------------------------------------------------------

namespace TagWire

namespace Keyed

variable {κ α β : Type} [Ord κ]

/- Ascending keys are different keys. -/
theorem nodup_of_ascending
    [Std.LawfulEqOrd κ]
    {entries : List (κ × α)}
    (h : Ascending entries) :
    (entries.map Prod.fst).Nodup := by
  rw [List.nodup_iff_pairwise_ne, List.pairwise_map]
  apply List.Pairwise.imp _ h
  intro a b hLt hSame
  have hSelf : compare b.1 b.1 = .eq :=
    Std.ReflCmp.compare_self
  rw [hSame, hSelf] at hLt
  cases hLt

/- A key below the first one finds nothing. -/
theorem lookup_eq_none_of_lt
    [Std.TransOrd κ] [Std.LawfulEqOrd κ]
    [BEq κ] [LawfulBEq κ]
    {key : κ}
    {e : κ × α}
    {rest : List (κ × α)}
    (h : Ascending (e :: rest))
    (hLt : compare key e.1 = .lt) :
    (e :: rest).lookup key = none := by
  apply lookup_eq_none_of_not_mem
  intro hMem
  have hSelf : compare key key = .eq :=
    Std.ReflCmp.compare_self
  rw [List.map_cons, List.mem_cons] at hMem
  rcases hMem with rfl | hMem
  · rw [hSelf] at hLt
    cases hLt
  · rcases List.mem_map.mp hMem with ⟨e', he', rfl⟩
    have hHead := (List.pairwise_cons.mp h).1 e' he'
    have hTrans := Std.TransCmp.lt_trans hLt hHead
    rw [hSelf] at hTrans
    cases hTrans

/- In ascending lists the first entry decides the first key. -/
private theorem head_key_le
    [Std.TransOrd κ] [Std.LawfulEqOrd κ]
    [BEq κ] [LawfulBEq κ]
    {a b : κ × α}
    {as bs : List (κ × α)}
    (hAs : Ascending (a :: as))
    (h :
      ∀ k, (a :: as).lookup k = (b :: bs).lookup k) :
    compare b.1 a.1 ≠ .lt := by
  intro hLt
  have hNone := lookup_eq_none_of_lt hAs hLt
  have hSome : (b :: bs).lookup b.1 = some b.2 :=
    List.lookup_cons_self
  rw [h, hSome] at hNone
  cases hNone

/- Ascending lists with the same lookups are equal. -/
theorem eq_of_lookup
    [Std.TransOrd κ] [Std.LawfulEqOrd κ]
    [BEq κ] [LawfulBEq κ]
    {as bs : List (κ × α)}
    (hAs : Ascending as)
    (hBs : Ascending bs)
    (h : ∀ k, as.lookup k = bs.lookup k) :
    as = bs := by
  induction as generalizing bs with
  | nil =>
      cases bs with
      | nil => rfl
      | cons b rest =>
          have hHead := h b.1
          rw [List.lookup_cons_self] at hHead
          cases hHead
  | cons a rest ih =>
      cases bs with
      | nil =>
          have hHead := h a.1
          rw [List.lookup_cons_self] at hHead
          cases hHead
      | cons b rest' =>
          have hKey : a.1 = b.1 := by
            cases hCompare : compare a.1 b.1 with
            | eq => exact Std.LawfulEqCmp.eq_of_compare hCompare
            | lt =>
                exact absurd hCompare
                  (head_key_le hBs fun k => (h k).symm)
            | gt =>
                exact absurd
                  (Std.OrientedCmp.gt_iff_lt.mp hCompare)
                  (head_key_le hAs h)
          have hValue : a.2 = b.2 := by
            have hHead := h a.1
            rw [List.lookup_cons_self, hKey,
              List.lookup_cons_self] at hHead
            exact Option.some.inj hHead
          have hRest : rest = rest' := by
            apply ih (List.pairwise_cons.mp hAs).2
              (List.pairwise_cons.mp hBs).2
            intro k
            have hTail := h k
            rw [List.lookup_cons, List.lookup_cons,
              ← hKey] at hTail
            cases hSame : k == a.1 with
            | false => rwa [hSame] at hTail
            | true =>
                have hNodup := nodup_of_ascending hAs
                have hNodup' := nodup_of_ascending hBs
                rw [eq_of_beq hSame]
                rw [lookup_eq_none_of_not_mem
                  (List.nodup_cons.mp hNodup).1]
                rw [hKey, lookup_eq_none_of_not_mem
                  (List.nodup_cons.mp hNodup').1]
          exact List.cons_eq_cons.mpr
            ⟨Prod.ext hKey hValue, hRest⟩

/- A list with ascending keys is built by binding them. -/
theorem ofList_of_ascending
    [Std.TransOrd κ] [Std.LawfulEqOrd κ]
    [BEq κ] [LawfulBEq κ]
    {entries : List (κ × α)}
    (h : Ascending entries) :
    ofList entries = entries :=
  eq_of_lookup (ascending_ofList entries) h
    (lookup_ofList_of_nodup (nodup_of_ascending h))

end Keyed

end TagWire

------------------------------------------------------------
-- Bound Entries among the Bindings
------------------------------------------------------------

namespace TagWire

namespace Keyed

variable {κ α : Type} [Ord κ]

/- The bound entries are some of the bindings, each once. -/
theorem subperm_ofList
    [Std.TransOrd κ] [Std.LawfulEqOrd κ]
    (bindings : List (κ × α)) :
    (ofList bindings).Subperm bindings := by
  apply List.subperm_of_subset
  · exact List.Nodup.of_map Prod.fst
      (nodup_of_ascending (ascending_ofList bindings))
  · exact fun e he => mem_of_mem_ofList he

/- No more keys are bound than there are bindings. -/
theorem length_ofList_le
    [Std.TransOrd κ] [Std.LawfulEqOrd κ]
    (bindings : List (κ × α)) :
    (ofList bindings).length ≤ bindings.length :=
  (subperm_ofList bindings).length_le

/- Whatever entries weigh, bound ones weigh no more. -/
theorem sum_ofList_le
    [Std.TransOrd κ] [Std.LawfulEqOrd κ]
    (weight : κ × α → Nat)
    (bindings : List (κ × α)) :
    ((ofList bindings).map weight).sum ≤
      (bindings.map weight).sum := by
  rcases subperm_ofList bindings with
    ⟨some', hPerm, hSublist⟩
  calc
    ((ofList bindings).map weight).sum
        = (some'.map weight).sum :=
          (hPerm.map weight).sum_eq.symm
    _ ≤ (bindings.map weight).sum :=
          (hSublist.map weight).sum_le_sum
            (fun _ _ => Nat.zero_le _)

/- If no binding is lost, all keys are different. -/
theorem nodup_of_length_ofList
    [Std.TransOrd κ] [Std.LawfulEqOrd κ]
    {bindings : List (κ × α)}
    (h : (ofList bindings).length = bindings.length) :
    (bindings.map Prod.fst).Nodup := by
  have hPerm :=
    (subperm_ofList bindings).perm_of_length_le h.ge
  have hNodup :=
    nodup_of_ascending (ascending_ofList bindings)
  exact (hPerm.map Prod.fst).nodup_iff.mp hNodup

/- Bindings of different keys are all bound, in some order. -/
theorem perm_ofList_of_nodup
    [Std.TransOrd κ] [Std.LawfulEqOrd κ]
    [DecidableEq κ]
    {bindings : List (κ × α)}
    (h : (bindings.map Prod.fst).Nodup) :
    (ofList bindings).Perm bindings :=
  (subperm_ofList bindings).antisymm
    (List.subperm_of_subset (List.Nodup.of_map Prod.fst h)
      fun _ he => mem_ofList_of_nodup h he)

/- Lists with ascending keys are equal if their pairs are. -/
theorem eq_of_mem_iff
    [Std.TransOrd κ] [Std.LawfulEqOrd κ]
    [DecidableEq κ]
    {as bs : List (κ × α)}
    (hAs : Ascending as)
    (hBs : Ascending bs)
    (h : ∀ e, e ∈ as ↔ e ∈ bs) :
    as = bs := by
  apply eq_of_lookup hAs hBs
  intro k
  refine Option.ext fun v => ?_
  constructor
  · intro hFound
    exact lookup_of_mem (nodup_of_ascending hBs)
      ((h (k, v)).mp (mem_of_lookup hFound))
  · intro hFound
    exact lookup_of_mem (nodup_of_ascending hAs)
      ((h (k, v)).mpr (mem_of_lookup hFound))

/- In which order different keys are bound does not matter. -/
theorem ofList_eq_of_perm
    [Std.TransOrd κ] [Std.LawfulEqOrd κ]
    [DecidableEq κ]
    {as bs : List (κ × α)}
    (hNodup : (as.map Prod.fst).Nodup)
    (hPerm : bs.Perm as) :
    ofList bs = ofList as := by
  have hNodup' : (bs.map Prod.fst).Nodup :=
    (hPerm.map Prod.fst).nodup_iff.mpr hNodup
  apply eq_of_mem_iff (ascending_ofList bs) (ascending_ofList as)
  intro e
  rw [(perm_ofList_of_nodup hNodup').mem_iff,
    (perm_ofList_of_nodup hNodup).mem_iff, hPerm.mem_iff]

/- A key is bound to a value if no later binding has the key. -/
theorem mem_ofList_iff
    [Std.TransOrd κ] [Std.LawfulEqOrd κ]
    [DecidableEq κ]
    {bindings : List (κ × α)}
    {key : κ}
    {value : α} :
    (key, value) ∈ ofList bindings ↔
      ∃ front back,
        bindings = front ++ (key, value) :: back ∧
          key ∉ back.map Prod.fst := by
  have hLookup :
      (key, value) ∈ ofList bindings ↔
        bindings.reverse.lookup key = some value := by
    rw [← lookup_ofList]
    exact
      ⟨lookup_of_mem
          (nodup_of_ascending (ascending_ofList bindings)),
        mem_of_lookup⟩
  rw [hLookup, List.lookup_eq_some_iff]
  constructor
  · intro h
    rcases h with ⟨back, front, hSplit, hNew⟩
    refine ⟨front.reverse, back.reverse, ?_, ?_⟩
    · rw [← List.reverse_reverse bindings, hSplit]
      simp
    · intro hMem
      rcases List.mem_map.mp hMem with ⟨e, he, hKey⟩
      have hNe := hNew e (List.mem_reverse.mp he)
      rw [bne_iff_ne] at hNe
      exact hNe hKey.symm
  · intro h
    rcases h with ⟨front, back, rfl, hNew⟩
    refine ⟨back.reverse, front.reverse, by simp, ?_⟩
    intro e he
    rw [bne_iff_ne]
    intro hKey
    exact hNew (hKey ▸ List.mem_map_of_mem
      (List.mem_reverse.mp he))

end Keyed

end TagWire

------------------------------------------------------------
-- Mapped Values
------------------------------------------------------------

namespace TagWire

namespace Keyed

variable {κ α β : Type} [Ord κ]

/- A key is bound to the image of a value as to the value. -/
theorem map_insert
    (g : α → β)
    (key : κ)
    (value : α)
    (entries : List (κ × α)) :
    (insert key value entries).map (Prod.map id g) =
      insert key (g value) (entries.map (Prod.map id g)) := by
  induction entries with
  | nil => rfl
  | cons e rest ih =>
      rcases e with ⟨k, v⟩
      rw [List.map_cons, Prod.map_apply, id]
      unfold insert
      cases compare key k with
      | lt => rfl
      | eq => rfl
      | gt => exact congrArg ((k, g v) :: ·) ih

/- Keys are bound to the images of values as to these. -/
theorem map_ofList
    (g : α → β)
    (bindings : List (κ × α)) :
    (ofList bindings).map (Prod.map id g) =
      ofList (bindings.map (Prod.map id g)) := by
  induction bindings using List.reverseRecOn with
  | nil => rfl
  | append_singleton front b ih =>
      simp only [ofList, List.map_append, List.foldl_append]
      simp only [ofList] at ih
      rw [← ih]
      exact map_insert g b.1 b.2 _

end Keyed

end TagWire

------------------------------------------------------------
-- Mapped Entries
------------------------------------------------------------

namespace TagWire

namespace Keyed

variable {κ κ' α α' : Type}
variable [Ord κ] [Std.TransOrd κ] [Std.LawfulEqOrd κ]
variable [Ord κ'] [Std.TransOrd κ'] [Std.LawfulEqOrd κ']
variable [DecidableEq κ] [DecidableEq κ']

/-
  Entries that are told apart when they are mapped to others
  are told apart when these are bound.
-/
theorem eq_of_ofList_map
    {g : κ × α → κ' × α'}
    {as bs : List (κ × α)}
    (hAs : Ascending as)
    (hBs : Ascending bs)
    (hKeys :
      ((as.map g).map Prod.fst).Nodup ∧
        ((bs.map g).map Prod.fst).Nodup)
    (hEach : ∀ a ∈ as, ∀ b ∈ bs, g a = g b → a = b)
    (h : ofList (as.map g) = ofList (bs.map g)) :
    as = bs := by
  have hPerm : (as.map g).Perm (bs.map g) :=
    (perm_ofList_of_nodup hKeys.1).symm.trans
      (h ▸ perm_ofList_of_nodup hKeys.2)
  apply eq_of_mem_iff hAs hBs
  intro e
  constructor
  · intro he
    have hMem := hPerm.mem_iff.mp (List.mem_map_of_mem he)
    rcases List.mem_map.mp hMem with ⟨b, hb, hSame⟩
    rwa [hEach e he b hb hSame.symm]
  · intro he
    have hMem := hPerm.mem_iff.mpr (List.mem_map_of_mem he)
    rcases List.mem_map.mp hMem with ⟨a, ha, hSame⟩
    rwa [← hEach a ha e he hSame]

end Keyed

end TagWire

------------------------------------------------------------
-- Entries That Belong Together
------------------------------------------------------------

namespace TagWire

namespace Keyed

variable {κ κ' α β : Type} [Ord κ] [Ord κ']

/- Entries belong together, key by key and value by value. -/
def EntriesMatch
    (K : κ → κ' → Prop)
    (R : α → β → Prop) :
    List (κ × α) → List (κ' × β) → Prop :=
  List.Forall₂ fun e e' => K e.1 e'.1 ∧ R e.2 e'.2

/- Binding a key keeps entries together. -/
theorem entriesMatch_insert
    {K : κ → κ' → Prop}
    {R : α → β → Prop}
    (hOrder :
      ∀ a b a' b', K a a' → K b b' →
        compare a b = compare a' b')
    {key : κ}
    {key' : κ'}
    {value : α}
    {value' : β}
    {entries : List (κ × α)}
    {entries' : List (κ' × β)}
    (hKey : K key key')
    (hValue : R value value')
    (h : EntriesMatch K R entries entries') :
    EntriesMatch K R (insert key value entries)
      (insert key' value' entries') := by
  induction h with
  | nil => exact .cons ⟨hKey, hValue⟩ .nil
  | @cons e e' rest rest' hHead hRest ih =>
      simp only [insert]
      rw [hOrder key e.1 key' e'.1 hKey hHead.1]
      split
      · exact .cons ⟨hKey, hValue⟩ (.cons hHead hRest)
      · exact .cons ⟨hKey, hValue⟩ hRest
      · exact .cons hHead ih

/- Keys in the same order are bound in the same way. -/
theorem entriesMatch_ofList
    {K : κ → κ' → Prop}
    {R : α → β → Prop}
    (hOrder :
      ∀ a b a' b', K a a' → K b b' →
        compare a b = compare a' b')
    {bindings : List (κ × α)}
    {bindings' : List (κ' × β)}
    (h : EntriesMatch K R bindings bindings') :
    EntriesMatch K R (ofList bindings) (ofList bindings') := by
  have hFold :
      ∀ acc acc', EntriesMatch K R acc acc' →
        EntriesMatch K R
          (bindings.foldl (fun acc b => insert b.1 b.2 acc) acc)
          (bindings'.foldl (fun acc b => insert b.1 b.2 acc)
            acc') := by
    induction h with
    | nil => exact fun _ _ hAcc => hAcc
    | cons hHead _ ih =>
        intro acc acc' hAcc
        exact ih _ _
          (entriesMatch_insert hOrder hHead.1 hHead.2 hAcc)
  exact hFold [] [] .nil

end Keyed

end TagWire
