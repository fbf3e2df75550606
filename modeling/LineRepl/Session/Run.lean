import LineRepl.Session.Basic
import LineRepl.Terminal.Reader

/-!
The loop of a session: it prompts, reads a line and handles it, until a line stops it or the input
does. A read that fails is shown and then counts as the end of the input. Each line read is gone
from the input, which is why the loop ends.
-/
namespace LineRepl

namespace Terminal

open Attempt

theorem input_of_switch {act : EStateM IoError ModeSwitch Unit} {t t' : Terminal}
    (h : switch act t = .ok () t') : t'.keyboard.input = t.keyboard.input := by
  obtain ⟨mode, -, rfl⟩ := ok_of_within (ok_of_adaptExcept h)
  rfl

theorem input_of_display {text : Text} {t t' : Terminal} (h : display text t = .ok () t') :
    t'.keyboard.input = t.keyboard.input := by
  obtain ⟨screen, -, rfl⟩ := ok_of_within h
  rfl

theorem input_of_finish {frame : Text} {t t' : Terminal} (h : finish frame t = .ok () t') :
    t'.keyboard.input = t.keyboard.input := by
  simp only [finish, bind_apply, adaptExcept_apply] at h
  split at h
  · rename_i t₁ h₁
    split at h
    · rename_i t₂ h₂
      simp only [EStateM.Result.ok.injEq] at h
      rw [← h.2, input_of_display h₂, input_of_switch h₁]
    · simp at h
  · simp at h

theorem abandon_ne_ok {α : Type} {e : IoError} {t t' : Terminal} {a : α} :
    abandon e t ≠ .ok a t' := by
  unfold abandon
  split <;> simp

/-- Reading keys to a submitted line takes at least the key that submits it. -/
theorem remaining_of_readKeys {prompt : Text} {l : EditLine} {t t' : Terminal} {text : Text}
    (h : readKeys prompt l t = .ok (.line text) t') :
    t'.keyboard.input.remaining < t.keyboard.input.remaining := by
  fun_induction readKeys prompt l t with
  | case1 => exact absurd h abandon_ne_ok
  | case2 =>
    simp only [map_apply] at h
    split at h <;> simp at h
  | case3 =>
    simp only [map_apply] at h
    split at h <;> simp at h
  | case4 l t input hk e t₁ h₁ => simp at h
  | case5 l t input hk u t₁ h₁ history =>
    simp only [EStateM.Result.ok.injEq] at h
    rw [← h.2]
    exact input_of_finish h₁ ▸ Key.remaining_of_read hk
  | case6 => exact absurd h abandon_ne_ok
  | case7 =>
    rename_i hk _ _ _ _ ih
    exact Nat.lt_trans (ih h) (Key.remaining_of_read (by assumption))
  | case8 =>
    rename_i ih
    exact Nat.lt_trans (ih h) (Key.remaining_of_read (by assumption))

/-- A line that was read is gone from the input. -/
theorem remaining_of_readLine {prompt : Text} {t t' : Terminal} {text : Text}
    (h : readLine prompt t = .ok (.line text) t') :
    t'.keyboard.input.remaining < t.keyboard.input.remaining := by
  unfold readLine at h
  split at h
  · simp at h
  · rename_i u t₁ h₁
    split at h
    · exact absurd h abandon_ne_ok
    · rename_i u t₂ h₂
      have := remaining_of_readKeys h
      rwa [input_of_display h₂, input_of_switch h₁] at this

end Terminal

namespace Session

variable {ω : Type} [Workshop ω]

/-- How a session ended, with what is left of the input. -/
abbrev Outcome (ω : Type) := EStateM.Result SessionError (Keyboard × Session ω) Unit

/-- Pairs the end of an action with the keyboard that it left alone. -/
def leaving (keyboard : Keyboard) : EStateM.Result SessionError (Session ω) Unit → Outcome ω
  | .ok u s => .ok u (keyboard, s)
  | .error e s => .error e (keyboard, s)

/-- Prompts until a line stops the session, or the input ends or fails. -/
def run (keyboard : Keyboard) (s : Session ω) : Outcome ω :=
  match _h : Terminal.readLine (Screen.prompt s.buffer.cursor) ⟨keyboard, s.output⟩ with
  | .error (.rawMode e) t => .error (.terminal e) (t.keyboard, { s with output := t.screen })
  | .error (.io e) t =>
    leaving t.keyboard ((do diagnose (InputError.io e).message.toList; finalize)
      { s with output := t.screen })
  | .ok .interrupted t => leaving t.keyboard (finalize { s with output := t.screen })
  | .ok (.line line) t =>
    match handleLine line { s with output := t.screen } with
    | .error e s => .error e (t.keyboard, s)
    | .ok .stop s => .ok () (t.keyboard, s)
    | .ok .proceed s => run t.keyboard s
termination_by keyboard.input.remaining
decreasing_by exact Terminal.remaining_of_readLine (by assumption)

end Session
end LineRepl
