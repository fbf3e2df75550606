import LineRepl.Proofs.Ends
import LineRepl.Session.Run

/-! Failures while a line is read. Writes to the screen that fail are counted, and so are switches of
the mode. A read that ends with a line, or is interrupted, has had neither. A read that fails may
have had them or not, as the input may be what failed, but an error of the mode comes from a switch
that failed. -/
namespace LineRepl

open Attempt

def ModeEvent.isFailure : ModeEvent → Bool
  | enterFailed | leaveFailed => true
  | raw | cooked => false

/-- How many switches of the mode have failed. -/
def ModeSwitch.failures (m : ModeSwitch) : Nat := m.events.countP ModeEvent.isFailure

theorem Sink.print_ends (t : Text) (s : Sink) :
    Ends (print t) s (fun _ s' => s'.failed = s.failed) (fun _ s' => s.failed < s'.failed) := by
  show Ends (put t.utf8) s _ _
  unfold Ends put
  cases s.faults s.made with
  | some f => exact Nat.lt_succ_self _
  | none =>
    by_cases hf : (fitting t.utf8 s).length = t.utf8.length
    · simp only [if_pos hf]
      rfl
    · simp only [if_neg hf]
      exact Nat.lt_succ_self _

namespace ModeSwitch

theorem enterRaw_ends (m : ModeSwitch) :
    Ends enterRaw m (fun _ m' => m'.events = m.events ++ [.raw])
      fun _ m' => m'.events = m.events ++ [.enterFailed] := by
  unfold Ends enterRaw
  cases m.enterFaults _ with
  | none => rfl
  | some e => rfl

theorem leaveRaw_ends (m : ModeSwitch) :
    Ends leaveRaw m (fun _ m' => m'.events = m.events ++ [.cooked])
      fun _ m' => m'.events = m.events ++ [.leaveFailed] := by
  unfold Ends leaveRaw
  cases m.leaveFaults _ with
  | none => rfl
  | some e => rfl

/-- Each event that is added counts if it is a failure. -/
theorem failures_of_events {m m' : ModeSwitch} {e : ModeEvent} (h : m'.events = m.events ++ [e]) :
    m'.failures = m.failures + if e.isFailure then 1 else 0 := by
  rw [failures, h, List.countP_append, List.countP_singleton, failures]

end ModeSwitch

namespace Terminal

/-- The terminal with its mode switched. -/
def atMode (t : Terminal) (mode : ModeSwitch) : Terminal :=
  { t with keyboard := { t.keyboard with mode } }

/-- Only the mode is switched, and an error of it is reported as such. -/
theorem switch_ends {act : EStateM IoError ModeSwitch Unit} {t : Terminal}
    {ok : Unit → ModeSwitch → Prop} {error : IoError → ModeSwitch → Prop}
    (h : Ends act t.keyboard.mode ok error) :
    Ends (switch act) t (fun u t' => ∃ mode, ok u mode ∧ t' = t.atMode mode)
      fun e t' => ∃ io, e = .rawMode io ∧ ∃ mode, error io mode ∧ t' = t.atMode mode := by
  refine Ends.adaptExcept (Ends.mono (Ends.within h) ?_ ?_)
  · rintro _ _ ⟨mode, hm, rfl⟩
    exact ⟨mode, hm, rfl⟩
  · rintro io _ ⟨mode, hm, rfl⟩
    exact ⟨io, rfl, mode, hm, rfl⟩

/-- No write and no switch has failed from `t` to `t'`. -/
def Quiet (t t' : Terminal) : Prop :=
  t'.screen.failed = t.screen.failed ∧ t'.keyboard.mode.failures = t.keyboard.mode.failures

/-- What an error tells of the failures from `t` to `t'`. -/
def Fault (t : Terminal) (e : InputError) (t' : Terminal) : Prop :=
  t.screen.failed ≤ t'.screen.failed ∧
    match e with
    | .rawMode _ => t.keyboard.mode.failures < t'.keyboard.mode.failures
    | .io _ => t.keyboard.mode.failures ≤ t'.keyboard.mode.failures

variable {t t₁ t₂ : Terminal} {e : InputError} {io : IoError}

theorem Quiet.trans (h : Quiet t t₁) (h' : Quiet t₁ t₂) : Quiet t t₂ :=
  ⟨h'.1.trans h.1, h'.2.trans h.2⟩

theorem Quiet.fault (h : Quiet t t₁) (io : IoError) : Fault t (.io io) t₁ :=
  ⟨Nat.le_of_eq h.1.symm, Nat.le_of_eq h.2.symm⟩

theorem Fault.trans (h : Fault t (.io io) t₁) (h' : Fault t₁ e t₂) : Fault t e t₂ := by
  obtain ⟨hs, hm⟩ := h
  obtain ⟨hs', hm'⟩ := h'
  refine ⟨Nat.le_trans hs hs', ?_⟩
  cases e with
  | rawMode e => exact Nat.lt_of_le_of_lt hm hm'
  | io e => exact Nat.le_trans hm hm'

theorem Quiet.then_fault (h : Quiet t t₁) (h' : Fault t₁ e t₂) : Fault t e t₂ :=
  (h.fault IoError.notUtf8).trans h'

theorem display_ends (text : Text) (t : Terminal) :
    Ends (display text) t (fun _ t' => Quiet t t') (fun e t' => Fault t (.io e) t') := by
  refine (Sink.print_ends text t.screen).within.mono ?_ ?_
  · rintro _ _ ⟨screen, hs, rfl⟩
    exact ⟨hs, rfl⟩
  · rintro e _ ⟨screen, hs, rfl⟩
    exact ⟨Nat.le_of_lt hs, Nat.le_refl _⟩

theorem enterRaw_ends (t : Terminal) : Ends enterRaw t (fun _ t' => Quiet t t') (Fault t) := by
  refine (switch_ends (ModeSwitch.enterRaw_ends _)).mono ?_ ?_
  · rintro _ _ ⟨mode, hm, rfl⟩
    exact ⟨rfl, ModeSwitch.failures_of_events hm⟩
  · rintro _ _ ⟨io, rfl, mode, hm, rfl⟩
    exact ⟨Nat.le_refl _, Nat.lt_of_lt_of_eq (Nat.lt_succ_self _) (ModeSwitch.failures_of_events hm).symm⟩

theorem leaveRaw_ends (t : Terminal) : Ends leaveRaw t (fun _ t' => Quiet t t') (Fault t) := by
  refine (switch_ends (ModeSwitch.leaveRaw_ends _)).mono ?_ ?_
  · rintro _ _ ⟨mode, hm, rfl⟩
    exact ⟨rfl, ModeSwitch.failures_of_events hm⟩
  · rintro _ _ ⟨io, rfl, mode, hm, rfl⟩
    exact ⟨Nat.le_refl _, Nat.lt_of_lt_of_eq (Nat.lt_succ_self _) (ModeSwitch.failures_of_events hm).symm⟩

/-- Who gives up reports the first error, also when the mode cannot be left any more. -/
theorem abandon_ends {α : Type} (e : IoError) (t : Terminal) :
    Ends (abandon e : Action α) t (fun _ _ => False) (Fault t) := by
  unfold Ends abandon
  cases hr : leaveRaw t with
  | ok a t₁ => exact ((leaveRaw_ends t).ok_of hr).fault e
  | error e₁ t₁ =>
    obtain ⟨hs, hm⟩ := (leaveRaw_ends t).error_of hr
    refine ⟨hs, ?_⟩
    cases e₁ with
    | rawMode e₁ => exact Nat.le_of_lt hm
    | io e₁ => exact hm

theorem finish_ends (frame : Text) (t : Terminal) :
    Ends (finish frame) t (fun _ t' => Quiet t t') (Fault t) := by
  refine (leaveRaw_ends t).bind ?_ fun _ _ => id
  intro _ t₁ h₁
  exact Ends.adaptExcept ((display_ends frame t₁).mono (fun _ _ h₂ => h₁.trans h₂)
    fun _ _ h₂ => h₁.then_fault h₂)

/-- A key that is read changes neither the screen nor the mode, so that only paintings and the end of
the line count. -/
theorem readKeys_ends (prompt : Text) (l : EditLine) (t : Terminal) :
    Ends (readKeys prompt l) t (fun _ t' => Quiet t t') (Fault t) := by
  have given_up {t t₁ : Terminal} (e : IoError) (h : Fault t (.io e) t₁) :
      Ends (abandon e : Action ReadOutcome) t₁ (fun _ t' => Quiet t t') (Fault t) :=
    (abandon_ends e t₁).mono (fun _ _ h₂ => h₂.elim) fun _ _ h₂ => h.trans h₂
  unfold Ends
  fun_induction readKeys prompt l t with
  | case1 l t e input =>
    have h : Quiet t { t with keyboard := { t.keyboard with input } } := ⟨rfl, rfl⟩
    exact given_up e (h.fault e)
  | case2 l t input => exact (finish_ends Escape.newRow _).map fun _ _ h => h
  | case3 l t input => exact (finish_ends Escape.newRow _).map fun _ _ h => h
  | case4 l t input _ e t₁ h₁ =>
    have h := (finish_ends _ _).error_of h₁
    exact h
  | case5 l t input _ _ t₁ h₁ =>
    have h := (finish_ends _ _).ok_of h₁
    exact h
  | case6 l t key input _ _ _ l' history _ keyboard _ e screen hp =>
    have hf := (Sink.print_ends _ _).error_of hp
    exact given_up e ⟨Nat.le_of_lt hf, Nat.le_refl _⟩
  | case7 l t key input _ _ _ l' history _ keyboard _ _ screen hp ih =>
    have h : Quiet t ⟨keyboard, screen⟩ := ⟨(Sink.print_ends _ _).ok_of hp, rfl⟩
    exact Ends.mono ih (fun _ _ h₂ => h.trans h₂) fun _ _ h₂ => h.then_fault h₂
  | case8 l t key input _ _ _ l' history _ keyboard _ ih => exact ih

/-- Reading a line has failures only where it says so. -/
theorem readLine_ends (prompt : Text) (t : Terminal) :
    Ends (readLine prompt) t (fun _ t' => Quiet t t') (Fault t) := by
  unfold Ends readLine
  cases hr : enterRaw t with
  | error e t₁ => exact (enterRaw_ends t).error_of hr
  | ok a t₁ =>
    have h₁ := (enterRaw_ends t).ok_of hr
    dsimp only
    cases hs : display prompt t₁ with
    | error e t₂ =>
      have h₂ := h₁.then_fault ((display_ends prompt t₁).error_of hs)
      exact (abandon_ends e t₂).mono (fun _ _ h => h.elim) fun _ _ h => h₂.trans h
    | ok b t₂ =>
      have h₂ := h₁.trans ((display_ends prompt t₁).ok_of hs)
      exact (readKeys_ends prompt {} t₂).mono (fun _ _ h => h₂.trans h) fun _ _ h => h₂.then_fault h

end Terminal
end LineRepl
