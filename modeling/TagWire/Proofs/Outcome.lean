import Mathlib.Data.List.Forall2

/-
  When a sequence of steps that may fail succeeds: each step
  has to succeed in turn. Where all steps fail with the same
  error, so does the sequence, and otherwise with the first
  error of all.

  Main declarations:
    * `Outcome.bind_eq_ok_iff`
    * `Outcome.mapM_eq_ok_iff`
    * `Outcome.mapM_eq_ok_iff_map`
    * `Outcome.map_eq_of_mapM`
    * `Outcome.forM_eq_ok_iff`
    * `Outcome.Requires`
    * `Outcome.Requires.bind`
    * `Outcome.Raises`
    * `Outcome.raises_mapM`
-/

------------------------------------------------------------
-- Single Steps
------------------------------------------------------------

namespace TagWire

namespace Outcome

variable {ε ε' α β : Type}

/- Two steps succeed when the second does after the first. -/
theorem bind_eq_ok_iff
    {r : Except ε α}
    {f : α → Except ε β}
    {b : β} :
    (r >>= f) = .ok b ↔ ∃ a, r = .ok a ∧ f a = .ok b := by
  cases r with
  | error e => simp [bind, Except.bind]
  | ok a => simp [bind, Except.bind]

/- A step that only gives a value gives that value. -/
theorem pure_eq_ok_iff
    {a b : α} :
    (pure a : Except ε α) = .ok b ↔ a = b := by
  simp [pure, Except.pure]

/- Renaming errors leaves success as it is. -/
theorem mapError_eq_ok_iff
    {f : ε → ε'}
    {r : Except ε α}
    {a : α} :
    r.mapError f = .ok a ↔ r = .ok a := by
  cases r <;> simp [Except.mapError]

/- A result is a success where it has the value of one. -/
theorem eq_ok_of_toOption
    {r : Except ε α}
    {a : α}
    (h : r.toOption = some a) :
    r = .ok a := by
  cases r with
  | error e => cases h
  | ok b =>
      cases h
      rfl

end Outcome

end TagWire

------------------------------------------------------------
-- One Error
------------------------------------------------------------

namespace TagWire

namespace Outcome

variable {ε α β : Type}

/- Success under a condition, and otherwise one error. -/
structure Requires
    (r : Except ε α)
    (P : Prop)
    (e : ε) : Prop where
  ok : P → ∃ a, r = .ok a
  error : ¬ P → r = .error e

variable {P Q : Prop}
variable {e : ε}

theorem requires_of_ok
    {r : Except ε α}
    (h : ∃ a, r = .ok a)
    (hP : P) :
    Requires r P e :=
  ⟨fun _ => h, fun hNot => absurd hP hNot⟩

/- What succeeds is what the condition allows. -/
theorem Requires.exists_ok_iff
    {r : Except ε α}
    (h : Requires r P e) :
    (∃ a, r = .ok a) ↔ P := by
  constructor
  · intro hOk
    by_contra hNot
    rcases hOk with ⟨a, hOk⟩
    rw [h.error hNot] at hOk
    cases hOk
  · exact h.ok

/- Two steps require what each of them does. -/
theorem Requires.bind
    {r : Except ε α}
    {f : α → Except ε β}
    (hr : Requires r P e)
    (hf : ∀ a, r = .ok a → Requires (f a) Q e) :
    Requires (r >>= f) (P ∧ Q) e := by
  by_cases hP : P
  · rcases hr.ok hP with ⟨a, hOk⟩
    have hSecond := hf a hOk
    have hBind : (r >>= f) = f a := by
      rw [hOk]
      rfl
    rw [hBind, and_iff_right hP]
    exact hSecond
  · refine ⟨fun h => absurd h.1 hP, fun _ => ?_⟩
    rw [hr.error hP]
    rfl

/- A second step that always succeeds requires nothing. -/
theorem Requires.bind_ok
    {r : Except ε α}
    {f : α → Except ε β}
    (hr : Requires r P e)
    (hf : ∀ a, ∃ b, f a = .ok b) :
    Requires (r >>= f) P e := by
  have hBind :=
    hr.bind fun a _ => requires_of_ok (hf a) trivial
  rwa [and_true] at hBind

end Outcome

end TagWire

------------------------------------------------------------
-- The First of Several Errors
------------------------------------------------------------

namespace TagWire

namespace Outcome

variable {ε α β : Type}

/-
  A result is the first of the errors that are due, and there
  is success where none is.
-/
inductive Raises :
    Except ε α → List ε → Prop
| ok
    {a : α} :
    Raises (.ok a) []
| error
    {e : ε}
    {es : List ε} :
    Raises (.error e) (e :: es)

variable {es es' : List ε}

theorem raises_of_ok
    {r : Except ε α}
    (h : ∃ a, r = .ok a) :
    Raises r [] := by
  rcases h with ⟨a, rfl⟩
  exact .ok

/- What succeeds is what no error is due in. -/
theorem Raises.exists_ok_iff
    {r : Except ε α}
    (h : Raises r es) :
    (∃ a, r = .ok a) ↔ es = [] := by
  cases h with
  | ok => simp
  | error => simp

/- Where an error is due, the first of them is the result. -/
theorem Raises.eq_error
    {r : Except ε α}
    {e : ε}
    (h : Raises r (e :: es)) :
    r = .error e := by
  cases h
  rfl

/- The errors of a second step are due after the first's. -/
theorem Raises.bind
    {r : Except ε α}
    {f : α → Except ε β}
    (hr : Raises r es)
    (hf : ∀ a, Raises (f a) es') :
    Raises (r >>= f) (es ++ es') := by
  cases hr with
  | ok => exact hf _
  | error => exact .error

/- A second step that always succeeds adds no errors. -/
theorem Raises.bind_pure
    {r : Except ε α}
    {f : α → β}
    (hr : Raises r es) :
    Raises (r >>= fun a => pure (f a)) es := by
  have hBind := hr.bind fun a => raises_of_ok ⟨f a, rfl⟩
  rwa [List.append_nil] at hBind

/- A first step that succeeds adds no errors. -/
theorem Raises.ok_bind
    {r : Except ε α}
    {f : α → Except ε β}
    (hr : ∃ a, r = .ok a)
    (hf : ∀ a, Raises (f a) es) :
    Raises (r >>= f) es :=
  (raises_of_ok hr).bind hf

/- The errors of a traversal are those of its steps in turn. -/
theorem raises_mapM
    {f : α → Except ε β}
    {as : List α}
    {due : α → List ε}
    (hSteps : ∀ a ∈ as, Raises (f a) (due a)) :
    Raises (as.mapM f) (as.flatMap due) := by
  induction as with
  | nil => exact .ok
  | cons a rest ih =>
      rcases List.forall_mem_cons.mp hSteps with
        ⟨hHead, hRest⟩
      rw [List.mapM_cons, List.flatMap_cons]
      exact hHead.bind fun _ => (ih hRest).bind_pure

end Outcome

end TagWire

------------------------------------------------------------
-- Lists of Steps
------------------------------------------------------------

namespace TagWire

namespace Outcome

variable {ε α β : Type}

/- A traversal succeeds with the results of its steps. -/
theorem mapM_eq_ok_iff
    {f : α → Except ε β}
    {as : List α}
    {bs : List β} :
    as.mapM f = .ok bs ↔
      List.Forall₂ (fun a b => f a = .ok b) as bs := by
  induction as generalizing bs with
  | nil =>
      rw [List.mapM_nil, pure_eq_ok_iff, List.forall₂_nil_left_iff]
      exact eq_comm
  | cons a rest ih =>
      simp only [List.mapM_cons, bind_eq_ok_iff,
        pure_eq_ok_iff, ih]
      constructor
      · intro h
        rcases h with ⟨b, hb, bs', hRest, rfl⟩
        exact .cons hb hRest
      · intro h
        rcases h with _ | ⟨hb, hRest⟩
        exact ⟨_, hb, _, hRest, rfl⟩

/- A traversal succeeds when each of its steps does. -/
theorem exists_mapM_eq_ok_iff
    {f : α → Except ε β}
    {as : List α} :
    (∃ bs, as.mapM f = .ok bs) ↔
      ∀ a ∈ as, ∃ b, f a = .ok b := by
  induction as with
  | nil => exact iff_of_true ⟨[], rfl⟩ (by simp)
  | cons a rest ih =>
      rw [List.forall_mem_cons, ← ih]
      simp only [List.mapM_cons, bind_eq_ok_iff,
        pure_eq_ok_iff]
      constructor
      · intro h
        rcases h with ⟨_, b, hb, bs, hRest, _⟩
        exact ⟨⟨b, hb⟩, bs, hRest⟩
      · intro h
        rcases h with ⟨⟨b, hb⟩, bs, hRest⟩
        exact ⟨_, b, hb, bs, hRest, rfl⟩

/-
  Steps of which each succeeds under a condition, and with a
  result that is known, succeed under all the conditions.
-/
theorem mapM_eq_ok_iff_map
    {f : α → Except ε β}
    {P : α → Prop}
    {g : α → β}
    {as : List α}
    {bs : List β}
    (hSteps : ∀ a ∈ as, ∀ b, f a = .ok b ↔ P a ∧ b = g a) :
    as.mapM f = .ok bs ↔ (∀ a ∈ as, P a) ∧ bs = as.map g := by
  induction as generalizing bs with
  | nil =>
      rw [List.mapM_nil, pure_eq_ok_iff]
      simp [eq_comm]
  | cons a rest ih =>
      rcases List.forall_mem_cons.mp hSteps with
        ⟨hHead, hRest⟩
      simp only [List.mapM_cons, bind_eq_ok_iff,
        pure_eq_ok_iff, hHead, ih hRest,
        List.forall_mem_cons, List.map_cons]
      constructor
      · intro h
        rcases h with ⟨_, ⟨ha, rfl⟩, _, ⟨has, rfl⟩, rfl⟩
        exact ⟨⟨ha, has⟩, rfl⟩
      · intro h
        rcases h with ⟨⟨ha, has⟩, rfl⟩
        exact ⟨_, ⟨ha, rfl⟩, _, ⟨has, rfl⟩, rfl⟩

/- The same for one step, if there is anything to do it for. -/
theorem option_mapM_eq_ok_iff_map
    {f : α → Except ε β}
    {P : α → Prop}
    {g : α → β}
    {a? : Option α}
    {b? : Option β}
    (hStep : ∀ a ∈ a?, ∀ b, f a = .ok b ↔ P a ∧ b = g a) :
    a?.mapM f = .ok b? ↔ (∀ a ∈ a?, P a) ∧ b? = a?.map g := by
  cases a? with
  | none =>
      rw [Option.mapM_none, pure_eq_ok_iff]
      simp [eq_comm]
  | some a =>
      have hBind :
          (some a).mapM f = f a >>= fun b => pure (some b) := by
        rw [Option.mapM_some, map_eq_pure_bind]
      simp only [hBind, bind_eq_ok_iff, pure_eq_ok_iff,
        hStep a rfl, Option.mem_some_iff, forall_eq',
        Option.map_some]
      constructor
      · intro h
        rcases h with ⟨_, ⟨ha, rfl⟩, rfl⟩
        exact ⟨ha, rfl⟩
      · intro h
        rcases h with ⟨ha, rfl⟩
        exact ⟨_, ⟨ha, rfl⟩, rfl⟩

/- Each result of a traversal is the result of a step. -/
theorem exists_of_mem_mapM
    {f : α → Except ε β}
    {as : List α}
    {bs : List β}
    {b : β}
    (h : as.mapM f = .ok bs)
    (hb : b ∈ bs) :
    ∃ a ∈ as, f a = .ok b := by
  have hSteps := mapM_eq_ok_iff.mp h
  clear h
  induction hSteps with
  | nil => cases hb
  | cons hStep _ ih =>
      rcases List.mem_cons.mp hb with rfl | hb
      · exact ⟨_, List.mem_cons_self, hStep⟩
      · rcases ih hb with ⟨a, ha, hStep⟩
        exact ⟨a, List.mem_cons_of_mem _ ha, hStep⟩

/- What every step keeps, a traversal keeps. -/
theorem map_eq_of_mapM
    {γ : Type}
    {f : α → Except ε β}
    {as : List α}
    {bs : List β}
    {g : α → γ}
    {g' : β → γ}
    (hKept : ∀ a b, f a = .ok b → g' b = g a)
    (h : as.mapM f = .ok bs) :
    bs.map g' = as.map g := by
  have hSteps := mapM_eq_ok_iff.mp h
  clear h
  induction hSteps with
  | nil => rfl
  | cons hStep _ ih =>
      rw [List.map_cons, List.map_cons, ih, hKept _ _ hStep]

/- Steps that do the same make the same traversal. -/
theorem mapM_congr
    {f g : α → Except ε β}
    {as : List α}
    (h : ∀ a ∈ as, f a = g a) :
    as.mapM f = as.mapM g := by
  induction as with
  | nil => rfl
  | cons a rest ih =>
      rcases List.forall_mem_cons.mp h with ⟨hHead, hRest⟩
      rw [List.mapM_cons, List.mapM_cons, hHead, ih hRest]

/- A traversal succeeds in two halves, one after another. -/
theorem mapM_append_eq_ok_iff
    {f : α → Except ε β}
    {as as' : List α}
    {bs : List β} :
    (as ++ as').mapM f = .ok bs ↔
      ∃ front back,
        as.mapM f = .ok front ∧ as'.mapM f = .ok back ∧
          bs = front ++ back := by
  simp only [List.mapM_append, bind_eq_ok_iff,
    pure_eq_ok_iff]
  constructor
  · intro h
    rcases h with ⟨front, hFront, back, hBack, rfl⟩
    exact ⟨front, back, hFront, hBack, rfl⟩
  · intro h
    rcases h with ⟨front, back, hFront, hBack, rfl⟩
    exact ⟨front, hFront, back, hBack, rfl⟩

/- A check of all elements succeeds when each check does. -/
theorem forM_eq_ok_iff
    {f : α → Except ε Unit}
    {as : List α} :
    as.forM f = .ok () ↔ ∀ a ∈ as, f a = .ok () := by
  induction as with
  | nil => simp [pure, Except.pure]
  | cons a rest ih =>
      simp only [List.forM_eq_forM, List.forM_cons,
        bind_eq_ok_iff] at ih ⊢
      rw [List.forall_mem_cons, ← ih]
      constructor
      · intro h
        rcases h with ⟨_, ha, hRest⟩
        exact ⟨ha, hRest⟩
      · intro h
        rcases h with ⟨ha, hRest⟩
        exact ⟨(), ha, hRest⟩

end Outcome

end TagWire
