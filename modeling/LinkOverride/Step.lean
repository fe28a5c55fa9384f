import LinkOverride.Failure

/-!
# Steps

A step changes a state and yields a value or a failure. A failing step keeps the state that it has
reached: what was done before a failure stays done.
-/

namespace LinkOverride

/-! ## Results -/

section

variable {ε α β : Type} {r : Except ε α} {e : ε} {b : β}

theorem bind_eq_ok_iff {f : α → Except ε β} :
    (r >>= f) = .ok b ↔ ∃ a, r = .ok a ∧ f a = .ok b := by
  cases r with
  | error e => simp [bind, Except.bind]
  | ok a => simp [bind, Except.bind]

theorem bind_eq_error_iff {f : α → Except ε β} :
    (r >>= f) = .error e ↔ r = .error e ∨ ∃ a, r = .ok a ∧ f a = .error e := by
  cases r with
  | error e => simp [bind, Except.bind]
  | ok a => simp [bind, Except.bind]

theorem map_eq_ok_iff {f : α → β} : r.map f = .ok b ↔ ∃ a, r = .ok a ∧ f a = b := by
  cases r with
  | error e => simp [Except.map]
  | ok a => simp [Except.map]

theorem map_eq_error_iff {f : α → β} : r.map f = .error e ↔ r = .error e := by
  cases r with
  | error e => simp [Except.map]
  | ok a => simp [Except.map]

end

/-! ## Steps -/

def Step (σ α : Type) : Type := σ → Except Failure α × σ

namespace Step

variable {σ τ α β : Type}

def ret (a : α) : Step σ α := fun s => (.ok a, s)

def andThen (x : Step σ α) (f : α → Step σ β) : Step σ β := fun s =>
  match x s with
  | (.ok a, s') => f a s'
  | (.error e, s') => (.error e, s')

instance : Monad (Step σ) where
  pure := ret
  bind := andThen

def fail (f : Failure) : Step σ α := fun s => (.error f, s)

def ofExcept (r : Except Failure α) : Step σ α := fun s => (r, s)

/-- Fails if there is no value. -/
def ofOption (f : Failure) (o : Option α) : Step σ α :=
  match o with
  | some a => ret a
  | none => fail f

def current : Step σ σ := fun s => (.ok s, s)

def modify (f : σ → σ) : Step σ Unit := fun s => (.ok (), f s)

/-- Never fails: the failure becomes the value. -/
def attempt (x : Step σ α) : Step σ (Except Failure α) := fun s =>
  let (r, s') := x s
  (.ok r, s')

/-- A step on a part of the state. -/
def within (part : τ → σ) (put : τ → σ → τ) (x : Step σ α) : Step τ α := fun t =>
  let (r, s') := x (part t)
  (r, put t s')

@[simp] theorem pure_apply (a : α) (s : σ) : (pure a : Step σ α) s = (.ok a, s) := rfl

@[simp] theorem fail_apply (f : Failure) (s : σ) : (fail f : Step σ α) s = (.error f, s) := rfl

@[simp] theorem current_apply (s : σ) : (current : Step σ σ) s = (.ok s, s) := rfl

@[simp] theorem modify_apply (f : σ → σ) (s : σ) : modify f s = (.ok (), f s) := rfl

@[simp] theorem ofExcept_apply (r : Except Failure α) (s : σ) : ofExcept r s = (r, s) := rfl

@[simp] theorem attempt_apply (x : Step σ α) (s : σ) : attempt x s = (.ok (x s).1, (x s).2) := rfl

@[simp] theorem within_apply (part : τ → σ) (put : τ → σ → τ) (x : Step σ α) (t : τ) :
    within part put x t = ((x (part t)).1, put t (x (part t)).2) := rfl

theorem bind_apply (x : Step σ α) (f : α → Step σ β) (s : σ) :
    (x >>= f) s = match x s with
      | (.ok a, s') => f a s'
      | (.error e, s') => (.error e, s') := rfl

theorem bind_ok {x : Step σ α} {s s' : σ} {a : α} (h : x s = (.ok a, s')) (f : α → Step σ β) :
    (x >>= f) s = f a s' := by
  simp [bind_apply, h]

theorem bind_error {x : Step σ α} {s s' : σ} {e : Failure} (h : x s = (.error e, s'))
    (f : α → Step σ β) : (x >>= f) s = (.error e, s') := by
  simp [bind_apply, h]

theorem id_map_step (x : Step σ α) : id <$> x = x := by
  funext s
  show (x >>= fun a => pure (id a)) s = x s
  rw [bind_apply]
  rcases x s with ⟨_ | _, _⟩ <;> rfl

theorem bind_assoc_step {γ : Type} (x : Step σ α) (f : α → Step σ β) (g : β → Step σ γ) :
    (x >>= f) >>= g = x >>= fun a => f a >>= g := by
  funext s
  simp only [bind_apply]
  rcases x s with ⟨_ | _, _⟩ <;> rfl

instance : LawfulMonad (Step σ) :=
  LawfulMonad.mk' (Step σ) id_map_step (fun _ _ => rfl) bind_assoc_step

end Step

end LinkOverride
