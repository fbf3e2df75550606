/-!
How actions that may fail run. An action takes a state and ends in a value or an error, with the
state it left. It can be run on a part of a larger state, and its failure can be handed on as a value.
The equations say what the combinators do to the state, so that a proof can follow an action step by
step.
-/
namespace LineRepl.Attempt

variable {ε ε' σ τ α β : Type}

/-- Runs an action on a part of a state. -/
def within (part : σ → τ) (put : τ → σ → σ) (act : EStateM ε τ α) : EStateM ε σ α := fun s =>
  match act (part s) with
  | .ok a t => .ok a (put t s)
  | .error e t => .error e (put t s)

/-- Runs an action, and hands on how it ended. -/
def caught (act : EStateM ε σ α) : EStateM ε' σ (Except ε α) := fun s =>
  match act s with
  | .ok a s => .ok (.ok a) s
  | .error e s => .ok (.error e) s

theorem pure_apply (a : α) (s : σ) : (pure a : EStateM ε σ α) s = .ok a s := rfl

theorem bind_apply (x : EStateM ε σ α) (f : α → EStateM ε σ β) (s : σ) :
    (x >>= f) s = match x s with
      | .ok a s => f a s
      | .error e s => .error e s := rfl

theorem map_apply (f : α → β) (x : EStateM ε σ α) (s : σ) :
    (f <$> x) s = match x s with
      | .ok a s => .ok (f a) s
      | .error e s => .error e s := rfl

theorem get_apply (s : σ) : (get : EStateM ε σ σ) s = .ok s s := rfl

theorem modify_apply (f : σ → σ) (s : σ) :
    (modify f : EStateM ε σ PUnit) s = .ok ⟨⟩ (f s) := rfl

theorem adaptExcept_apply (f : ε → ε') (x : EStateM ε σ α) (s : σ) :
    x.adaptExcept f s = match x s with
      | .ok a s => .ok a s
      | .error e s => .error (f e) s := by
  unfold EStateM.adaptExcept
  cases x s <;> rfl

theorem within_apply (part : σ → τ) (put : τ → σ → σ) (act : EStateM ε τ α) (s : σ) :
    within part put act s = match act (part s) with
      | .ok a t => .ok a (put t s)
      | .error e t => .error e (put t s) := rfl

theorem caught_apply (act : EStateM ε σ α) (s : σ) :
    (caught act : EStateM ε' σ (Except ε α)) s = match act s with
      | .ok a s => .ok (.ok a) s
      | .error e s => .ok (.error e) s := rfl

variable {part : σ → τ} {put : τ → σ → σ} {act : EStateM ε τ α} {x : EStateM ε σ α} {f : ε → ε'}
  {s s' : σ} {a : α}

theorem ok_of_within (h : within part put act s = .ok a s') :
    ∃ t, act (part s) = .ok a t ∧ s' = put t s := by
  rw [within_apply] at h
  cases hr : act (part s) with
  | ok b t =>
    rw [hr] at h
    cases h
    exact ⟨t, rfl, rfl⟩
  | error e t =>
    rw [hr] at h
    cases h

theorem ok_of_adaptExcept (h : x.adaptExcept f s = .ok a s') : x s = .ok a s' := by
  rw [adaptExcept_apply] at h
  cases hr : x s with
  | ok b t =>
    rw [hr] at h
    cases h
    rfl
  | error e t =>
    rw [hr] at h
    cases h

end LineRepl.Attempt
