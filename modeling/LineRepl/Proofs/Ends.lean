import LineRepl.Attempt

/-! Both ends of an action at once. A statement about an action says what holds when it ends in a
value and what holds when it ends in an error, so one lemma for each action serves those who rely on
success and those who ask what a failure leaves behind. -/
namespace LineRepl.Attempt

variable {ε ε' σ τ α β : Type}

/-- An action from a state ends in a value with `ok` or in an error with `error`. -/
def Ends (x : EStateM ε σ α) (s : σ) (ok : α → σ → Prop) (error : ε → σ → Prop) : Prop :=
  match x s with
  | .ok a s => ok a s
  | .error e s => error e s

/-- The state in which an action ends, with a value or an error. -/
def final : EStateM.Result ε σ α → σ
  | .ok _ s => s
  | .error _ s => s

namespace Ends

variable {x : EStateM ε σ α} {s : σ} {ok ok' : α → σ → Prop} {error error' : ε → σ → Prop}

theorem ok_of (h : Ends x s ok error) {a : α} {t : σ} (hx : x s = .ok a t) : ok a t := by
  simpa only [Ends, hx] using h

theorem error_of (h : Ends x s ok error) {e : ε} {t : σ} (hx : x s = .error e t) : error e t := by
  simpa only [Ends, hx] using h

/-- What holds at both ends holds of the state in which the action ends. -/
theorem final_of {p : σ → Prop} (h : Ends x s (fun _ t => p t) fun _ t => p t) : p (final (x s)) := by
  cases hx : x s with
  | ok a t => exact h.ok_of hx
  | error e t => exact h.error_of hx

theorem mono (h : Ends x s ok error) (hok : ∀ a s, ok a s → ok' a s)
    (herror : ∀ e s, error e s → error' e s) : Ends x s ok' error' := by
  unfold Ends
  cases hx : x s with
  | ok a t => exact hok a t (h.ok_of hx)
  | error e t => exact herror e t (h.error_of hx)

theorem bind {f : α → EStateM ε σ β} {ok' : β → σ → Prop} (h : Ends x s ok error)
    (hok : ∀ a t, ok a t → Ends (f a) t ok' error') (herror : ∀ e t, error e t → error' e t) :
    Ends (x >>= f) s ok' error' := by
  unfold Ends
  rw [bind_apply]
  cases hx : x s with
  | ok a t => exact hok a t (h.ok_of hx)
  | error e t => exact herror e t (h.error_of hx)

theorem map {f : α → β} {ok' : β → σ → Prop} (h : Ends x s ok error)
    (hok : ∀ a t, ok a t → ok' (f a) t) : Ends (f <$> x) s ok' error := by
  unfold Ends
  rw [map_apply]
  cases hx : x s with
  | ok a t => exact hok a t (h.ok_of hx)
  | error e t => exact h.error_of hx

theorem get_bind {f : σ → EStateM ε σ α} (h : Ends (f s) s ok error) : Ends (get >>= f) s ok error :=
  h

theorem modify_bind {g : σ → σ} {f : PUnit → EStateM ε σ α} (h : Ends (f ⟨⟩) (g s) ok error) :
    Ends (modify g >>= f) s ok error := h

/-- What is known of the end of an action, together with its run. -/
theorem ran (h : Ends x s ok error) : Ends x s (fun a t => x s = .ok a t ∧ ok a t) error := by
  unfold Ends
  cases hx : x s with
  | ok a t => exact ⟨rfl, h.ok_of hx⟩
  | error e t => exact h.error_of hx

theorem both (h : Ends x s ok error) (h' : Ends x s ok' error') :
    Ends x s (fun a t => ok a t ∧ ok' a t) (fun e t => error e t ∧ error' e t) := by
  unfold Ends
  cases hx : x s with
  | ok a t => exact ⟨h.ok_of hx, h'.ok_of hx⟩
  | error e t => exact ⟨h.error_of hx, h'.error_of hx⟩

/-- Where an error is ruled out there is a value. -/
theorem exists_ok (h : Ends x s ok error) (hn : ∀ e t, ¬ error e t) :
    ∃ a t, x s = .ok a t ∧ ok a t := by
  cases hx : x s with
  | ok a t => exact ⟨a, t, rfl, h.ok_of hx⟩
  | error e t => exact absurd (h.error_of hx) (hn e t)

theorem any : Ends x s (fun _ _ => True) fun _ _ => True := by
  unfold Ends
  split
  · trivial
  · trivial

theorem adaptExcept {f : ε → ε'} {error : ε' → σ → Prop}
    (h : Ends x s ok fun e t => error (f e) t) : Ends (x.adaptExcept f) s ok error := by
  unfold Ends
  rw [adaptExcept_apply]
  cases hx : x s with
  | ok a t => exact h.ok_of hx
  | error e t => exact h.error_of hx

/-- An action on a part ends as it does on its own, with the part put back. -/
theorem within {part : σ → τ} {put : τ → σ → σ} {act : EStateM ε τ α} {ok : α → τ → Prop}
    {error : ε → τ → Prop} (h : Ends act (part s) ok error) :
    Ends (Attempt.within part put act) s (fun a s' => ∃ t, ok a t ∧ s' = put t s)
      (fun e s' => ∃ t, error e t ∧ s' = put t s) := by
  unfold Ends
  rw [within_apply]
  cases ha : act (part s) with
  | ok a t => exact ⟨t, h.ok_of ha, rfl⟩
  | error e t => exact ⟨t, h.error_of ha, rfl⟩

/-- What an action leaves of the part is found in the state afterwards. -/
theorem within_part {part : σ → τ} {put : τ → σ → σ} {act : EStateM ε τ α} {ok : α → τ → Prop}
    {error : ε → τ → Prop} (hput : ∀ t, part (put t s) = t) (h : Ends act (part s) ok error) :
    Ends (Attempt.within part put act) s (fun a s' => ok a (part s'))
      (fun e s' => error e (part s')) := by
  refine (within h).mono ?_ ?_
  · rintro a _ ⟨t, ha, rfl⟩
    rwa [hput]
  · rintro e _ ⟨t, he, rfl⟩
    rwa [hput]

/-- What the rest of a state says, whatever an action makes of the part. -/
theorem within_rest {part : σ → τ} {put : τ → σ → σ} {act : EStateM ε τ α} {p : σ → Prop}
    (h : ∀ t, p (put t s)) :
    Ends (Attempt.within part put act) s (fun _ s' => p s') fun _ s' => p s' := by
  refine (within .any).mono ?_ ?_
  · rintro _ _ ⟨t, -, rfl⟩
    exact h t
  · rintro _ _ ⟨t, -, rfl⟩
    exact h t

end Ends
end LineRepl.Attempt
