import LinkOverride.Step
import Mathlib.Order.Defs.Unbundled

/-!
# What steps keep

A step respects a relation if the state that it leaves is always related to the state that it found,
whether it yields a value or a failure. A preorder is respected by a whole program as soon as its
parts respect it: nothing has to be said about how the parts are put together.

`rel_bind` is the rule for two steps in a row, at one state. It gives the second step what the first
one yielded, so that the second need not respect the relation from every state.
-/

namespace LinkOverride.Step

variable {σ τ α β : Type}

/-- The state that the step leaves is related to the state that it found. -/
def Respects (R : σ → σ → Prop) (x : Step σ α) : Prop := ∀ s, R s (x s).2

theorem Respects.mono {R S : σ → σ → Prop} {x : Step σ α} (hx : Respects R x)
    (h : ∀ s s', R s s' → S s s') : Respects S x :=
  fun s => h s _ (hx s)

/-- A failure that becomes a value changes nothing about the state. -/
theorem Respects.attempt {R : σ → σ → Prop} {x : Step σ α} (hx : Respects R x) :
    Respects R x.attempt := hx

/-- What two steps in a row yield, the second has yielded from what the first one did. -/
theorem bind_eq_ok {x : Step σ α} {f : α → Step σ β} {s s' : σ} {b : β}
    (h : (x >>= f) s = (.ok b, s')) : ∃ a t, x s = (.ok a, t) ∧ f a t = (.ok b, s') := by
  rcases hx : x s with ⟨r, t⟩
  cases r with
  | ok a => exact ⟨a, t, rfl, by rw [← h, bind_ok hx]⟩
  | error e =>
    rw [bind_error hx] at h
    exact absurd h (by simp)

section Preorder

variable {R : σ → σ → Prop} [IsPreorder σ R]

/-- **Two steps in a row.** The second step starts where the first one has succeeded. -/
theorem rel_bind {x : Step σ α} {f : α → Step σ β} {s : σ} (hx : R s (x s).2)
    (hf : ∀ a s', x s = (.ok a, s') → R s' (f a s').2) : R s ((x >>= f) s).2 := by
  rw [bind_apply]
  rcases hr : x s with ⟨r, s'⟩
  rw [hr] at hx
  cases r with
  | ok a => exact trans_of R hx (hf a s' hr)
  | error e => exact hx

/-- What the second step keeps is as the first one has left it. -/
theorem rel_of_bind {x : Step σ α} {f : α → Step σ β} (hf : ∀ a, Respects R (f a)) (s : σ) :
    R (x s).2 ((x >>= f) s).2 := by
  rw [bind_apply]
  rcases x s with ⟨r, s'⟩
  cases r with
  | ok a => exact hf a s'
  | error e => exact refl_of R s'

theorem Respects.bind {x : Step σ α} {f : α → Step σ β} (hx : Respects R x)
    (hf : ∀ a, Respects R (f a)) : Respects R (x >>= f) :=
  fun s => rel_bind (hx s) fun a s' _ => hf a s'

theorem respects_pure (a : α) : Respects R (pure a : Step σ α) := fun s => refl_of R s

theorem respects_fail (e : Failure) : Respects R (fail e : Step σ α) := fun s => refl_of R s

theorem respects_current : Respects R (current : Step σ σ) := fun s => refl_of R s

theorem respects_ofExcept (r : Except Failure α) : Respects R (ofExcept r : Step σ α) :=
  fun s => refl_of R s

end Preorder

end LinkOverride.Step
