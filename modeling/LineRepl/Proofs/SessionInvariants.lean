import LineRepl.Build.Toolchain
import LineRepl.Proofs.Observed
import LineRepl.Proofs.SessionPages

/-! What the calls of the surroundings keep. A session reaches its surroundings through the calls of the
store, of the tools and of the log and in no other way, so what each of them keeps, also when it fails,
holds however far a session runs, and the tools find it each time they are called. -/
namespace LineRepl

open Attempt

/-- Every call of the surroundings keeps `I`, however it ends. -/
structure Enduring {ω : Type} [Workshop ω] (I : ω → Prop) : Prop extends Stable I where
  buildAndRun {w : ω} (source : Path) : I w →
    Ends (Workshop.buildAndRun source) w (fun _ w => I w) fun _ w => I w
  appendLog {w : ω} (path : Path) (tag : LogTag) (text : Text) : I w →
    Ends (Workshop.appendLog path tag text) w (fun _ w => I w) fun _ w => I w

variable {ω ε α : Type} {I : ω → Prop}

namespace Observed

theorem pass_keeps {act : EStateM ε ω α} {w : Observed ω}
    (h : Ends act w.inner (fun _ w => I w) fun _ w => I w) (hseen : ∀ v ∈ w.seen, I v) :
    Ends (pass act) w (fun _ w => I w.inner ∧ ∀ v ∈ w.seen, I v)
      fun _ w => I w.inner ∧ ∀ v ∈ w.seen, I v :=
  (pass_ends h).mono (fun _ _ hw => ⟨hw.1, hw.2 ▸ hseen⟩) fun _ _ hw => ⟨hw.1, hw.2 ▸ hseen⟩

/-- Under observation it is also what the tools have found so far. -/
theorem enduring [Workshop ω] (e : Enduring I) :
    Enduring fun w : Observed ω => I w.inner ∧ ∀ v ∈ w.seen, I v where
  toStable := (wraps.stable e.toStable).and (calls_stable fun seen => ∀ v ∈ seen, I v)
  buildAndRun {w} source h := by
    refine pass_keeps (w := { w with seen := w.seen ++ [w.inner] }) (e.buildAndRun source h.1) ?_
    intro v hv
    obtain hv | hv := List.mem_append.mp hv
    · exact h.2 v hv
    · exact List.mem_singleton.mp hv ▸ h.1
  appendLog path tag text h := pass_keeps (e.appendLog path tag text h.1) h.2

end Observed

theorem Workplace.wraps : Wraps Workplace.store fun store w => { w with store } where
  part_put _ _ := rfl
  load := rfl
  replace _ := rfl
  append _ := rfl
  truncate _ := rfl
  readLineAt _ := rfl

namespace Session

/-- However an action ends, the surroundings have `I` if they had it before. -/
def Preserves (I : ω → Prop) (act : Action ω α) : Prop :=
  ∀ s : Session ω, I s.buffer.store →
    Ends act s (fun _ s => I s.buffer.store) fun _ s => I s.buffer.store

theorem LeavesBuffer.preserves {act : Action ω α} (h : LeavesBuffer act) : Preserves I act :=
  fun _ hi => (h rfl).mono (fun _ _ hb => hb ▸ hi) fun _ _ hb => hb ▸ hi

theorem onBuffer_preserves {act : EStateM ε (Buffer ω) α} (h : Buffer.Preserves I act) :
    Preserves I (onBuffer act) := by
  intro s hs
  refine (onBuffer_ends (K := fun b => I b.store) (h s.buffer hs)).mono ?_ fun _ _ => False.elim
  rintro _ _ ⟨b, hb, rfl⟩
  exact hb

theorem enter_preserves [TextStore ω] (st : Stable I) (text : Text) :
    Buffer.Preserves I (enter text : Buffer.Action ω Unit) :=
  (Buffer.write_preserves st _).bind fun _ => Buffer.reseal_preserves st

section Calls

variable [Workshop ω] (e : Enduring I)
include e

/-- What each call keeps, all that a session does keeps. -/
theorem handling_preserves : Handling (ω := ω) (Preserves I) where
  pure _ _ h := h
  bind hx hf s h := (hx s h).bind (fun a _ h => hf a _ h) fun _ _ h => h
  present v := (present_leavesBuffer v).preserves
  appendLog tag text s h := by
    refine (appendLog_ends h fun path _ => e.appendLog path tag text h).mono ?_
      fun _ _ => False.elim
    rintro _ _ ⟨store, hw, rfl⟩
    exact hw
  callTools s h := by
    refine (callTools_ends (e.buildAndRun s.options.source h)).mono ?_ fun _ _ => False.elim
    rintro _ _ ⟨store, hw, rfl⟩
    exact hw
  enter text := onBuffer_preserves (enter_preserves e.toStable text)
  newRow := (display_leavesBuffer _).preserves
  applyLine line s := onBuffer_preserves
    (Buffer.runLine_preserves e.toStable s.options.skeleton line) s

/-- However a session runs, what the surroundings keep is kept. -/
theorem run_preserves (keyboard : Keyboard) (s : Session ω) (h : I s.buffer.store) :
    I (final (run keyboard s)).2.buffer.store := by
  have hleaving {keyboard : Keyboard} {act : Action ω Unit} (hact : Preserves I act)
      {s : Session ω} (h : I s.buffer.store) :
      I (final (leaving keyboard (act s))).2.buffer.store := by
    have hs := (hact s h).final_of
    cases hr : act s <;> rwa [hr] at hs
  have rules := handling_preserves e
  fun_induction run keyboard s with
  | case1 => exact h
  | case2 => exact hleaving (rules.bind (rules.present _) fun _ => rules.finalize) h
  | case3 => exact hleaving rules.finalize h
  | case4 keyboard s line t hread failure s₁ hline =>
    exact (rules.handleLine line { s with output := t.screen } h).error_of hline
  | case5 keyboard s line t hread s₁ hline =>
    exact (rules.handleLine line { s with output := t.screen } h).ok_of hline
  | case6 keyboard s line t hread s₁ hline ih =>
    exact ih ((rules.handleLine line { s with output := t.screen } h).ok_of hline)

/-- The tools find at each call of a run what the surroundings had when it began. -/
theorem run_seen (keyboard : Keyboard) {s : Session (Observed ω)} (h : I s.buffer.store.inner)
    (hseen : s.buffer.store.seen = []) :
    ∀ w ∈ (final (run keyboard s)).2.buffer.store.seen, I w :=
  (run_preserves (Observed.enduring e) keyboard s ⟨h, hseen ▸ nofun⟩).2

end Calls
end Session
end LineRepl
