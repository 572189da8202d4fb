import Mathlib.Data.List.Forall2
import TagWire.Proofs.Wire.Passing
import TagWire.Value.Decode

/-
  Two codecs do the same when, wherever one of them gives a
  value, the other one gives one that belongs to it, and where
  one of them fails, the other one fails likewise. Whether two
  readers do the same is seen from their parts.

  Main declarations:
    * `Outcome.Alike`
    * `Reader.Alike`
    * `Reader.alike_bind`
    * `Reader.alike_times`
-/

------------------------------------------------------------
-- Results
------------------------------------------------------------

namespace TagWire

namespace Outcome

variable {α β γ : Type}

/-
  Two results are alike if they are values that belong
  together, or the same fault of the encoded data.
-/
inductive Alike
    (R : α → β → Prop) :
    Except CodecError α → Except WireError β → Prop
| ok
    {a : α}
    {b : β}
    (h : R a b) :
    Alike R (.ok a) (.ok b)
| error
    (e : WireError) :
    Alike R (.error (.wire e)) (.error e)

/- Results of a function are related by what it is given. -/
theorem Alike.map
    {R : α → β → Prop}
    {S : γ → β → Prop}
    {r : Except CodecError α}
    {r' : Except WireError β}
    {f : α → γ}
    (h : Alike R r r')
    (hMap : ∀ a b, R a b → S (f a) b) :
    Alike S (r.map f) r' := by
  cases h with
  | ok h => exact .ok (hMap _ _ h)
  | error e => exact .error e

/- A result is alike to itself with its errors renamed. -/
theorem alike_mapError
    (r : Except WireError α) :
    Alike Eq (r.mapError CodecError.wire) r := by
  cases r with
  | error e => exact .error e
  | ok a => exact .ok rfl

/- Errors are renamed in a sequence as in its steps. -/
theorem mapError_bind
    (r : Except WireError α)
    (f : α → Except WireError β) :
    (r >>= f).mapError CodecError.wire =
      r.mapError CodecError.wire >>= fun a =>
        (f a).mapError CodecError.wire := by
  cases r <;> rfl

theorem mapError_pure
    (a : α) :
    (pure a : Except WireError α).mapError CodecError.wire =
      pure a := by
  rfl

end Outcome

end TagWire

------------------------------------------------------------
-- Readers
------------------------------------------------------------

namespace TagWire

namespace Reader

variable {α β γ δ : Type}
variable {R : α → β → Prop}
variable {S : γ → δ → Prop}

/-
  Two readers are alike if from every place they move to the
  same place, with values that belong together or with the
  same fault.
-/
def Alike
    (R : α → β → Prop)
    (r : Reader CodecError α)
    (r' : Reader WireError β) : Prop :=
  ∀ c, ∃ d,
    (∃ a b, r c = (.ok a, d) ∧ r' c = (.ok b, d) ∧ R a b) ∨
    (∃ e, r c = (.error (.wire e), d) ∧ r' c = (.error e, d))

theorem alike_pure
    {a : α}
    {b : β}
    (h : R a b) :
    Alike R (pure a) (pure b) :=
  fun c => ⟨c, Or.inl ⟨a, b, rfl, rfl, h⟩⟩

theorem alike_fail
    (e : WireError) :
    Alike R (fail (.wire e)) (fail e) :=
  fun c => ⟨c, Or.inr ⟨e, rfl, rfl⟩⟩

theorem alike_wire
    (r : Reader WireError α) :
    Alike Eq (Value.wire r) r := by
  intro c
  rcases hRun : r c with ⟨e | a, d⟩
  · exact ⟨d, Or.inr ⟨e, by rw [Value.wire, mapError, hRun], rfl⟩⟩
  · exact ⟨d, Or.inl
      ⟨a, a, by rw [Value.wire, mapError, hRun], rfl, rfl⟩⟩

theorem alike_lookahead :
    Alike Eq lookahead lookahead :=
  fun c => ⟨c, Or.inl ⟨_, _, rfl, rfl, rfl⟩⟩

theorem alike_tag :
    Alike Eq tag tag := by
  intro c
  rcases hByte : byte c with ⟨e | b, d⟩
  · exact ⟨d, Or.inl
      ⟨none, none, by rw [tag, hByte], by rw [tag, hByte], rfl⟩⟩
  · exact ⟨d, Or.inl
      ⟨some b, some b, by rw [tag, hByte], by rw [tag, hByte],
        rfl⟩⟩

theorem alike_ofExcept
    {r : Except CodecError α}
    {r' : Except WireError β}
    (h : Outcome.Alike R r r') :
    Alike R (ofExcept r) (ofExcept r') := by
  intro c
  cases h with
  | ok h => exact ⟨c, Or.inl ⟨_, _, rfl, rfl, h⟩⟩
  | error e => exact ⟨c, Or.inr ⟨e, rfl, rfl⟩⟩

/- Readers that are alike go on alike. -/
theorem alike_bind
    {r : Reader CodecError α}
    {r' : Reader WireError β}
    {f : α → Reader CodecError γ}
    {f' : β → Reader WireError δ}
    (h : Alike R r r')
    (hNext : ∀ a b, R a b → Alike S (f a) (f' b)) :
    Alike S (r >>= f) (r' >>= f') := by
  intro c
  rcases h c with ⟨d, ⟨a, b, hr, hr', hR⟩ | ⟨e, hr, hr'⟩⟩
  · rw [bind_of_ok hr, bind_of_ok hr']
    exact hNext a b hR d
  · refine ⟨d, Or.inr ⟨e, ?_, ?_⟩⟩
    · simp only [bind, hr]
    · simp only [bind, hr']

/- What is read may be wrapped on one side only. -/
theorem alike_bind_pure
    {T : γ → β → Prop}
    {r : Reader CodecError α}
    {r' : Reader WireError β}
    {f : α → γ}
    (h : Alike R r r')
    (hWrap : ∀ a b, R a b → T (f a) b) :
    Alike T (r >>= fun a => pure (f a)) r' := by
  rw [← bind_pure r']
  exact alike_bind h fun a b hR => alike_pure (hWrap a b hR)

theorem alike_times
    {r : Reader CodecError α}
    {r' : Reader WireError β}
    (h : Alike R r r')
    (n : Nat) :
    Alike (List.Forall₂ R) (times r n) (times r' n) := by
  induction n with
  | zero => exact alike_pure .nil
  | succ n ih =>
      rw [times_succ, times_succ]
      refine alike_bind h fun a b hHead => ?_
      refine alike_bind ih fun as bs hRest => ?_
      exact alike_pure (.cons hHead hRest)

/- Readers that are alike give alike results. -/
theorem Alike.eval
    {r : Reader CodecError α}
    {r' : Reader WireError β}
    (h : Alike R r r')
    (data : List UInt8) :
    Outcome.Alike R (r.eval data) (r'.eval data) := by
  rcases h (Cursor.start data) with
    ⟨d, ⟨a, b, hr, hr', hR⟩ | ⟨e, hr, hr'⟩⟩
  · rw [Reader.eval, Reader.eval, hr, hr']
    exact .ok hR
  · rw [Reader.eval, Reader.eval, hr, hr']
    exact .error e

end Reader

end TagWire
