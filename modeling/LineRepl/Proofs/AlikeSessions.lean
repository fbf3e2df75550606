import LineRepl.Proofs.LineEditor
import LineRepl.Proofs.SessionRules

/-! Sessions that differ in their output only. What a session has shown and how much more can be shown
is looked at when something is to be shown, and there it decides about nothing but failure. So an
action that succeeds from two such sessions returns the same value and leaves such sessions again, with
the same buffer and store; and from a session whose output does not fail it succeeds. -/
namespace LineRepl.Session

open Attempt

variable {ω ε α β : Type}

/-- The output decides only whether an action fails. -/
structure Alike (act : Action ω α) : Prop where
  shown : ∀ s, Ends act s (fun _ s' => s.output.Unfailing → s'.output.Unfailing)
    fun _ _ => ¬ s.output.Unfailing
  agrees : ∀ s output a a' t t', act s = .ok a t → act { s with output } = .ok a' t' →
    a' = a ∧ t' = { t with output := t'.output }

namespace Alike

theorem pure (a : α) : Alike (Pure.pure a : Action ω α) where
  shown _ := id
  agrees _ _ _ _ _ _ h h' := by
    cases h
    cases h'
    exact ⟨rfl, rfl⟩

theorem bind {x : Action ω α} {f : α → Action ω β} (hx : Alike x) (hf : ∀ a, Alike (f a)) :
    Alike (x >>= f) where
  shown s := by
    refine (hx.shown s).bind (fun a t ht => ?_) fun _ _ => id
    exact ((hf a).shown t).mono (fun _ _ ht' hs => ht' (ht hs)) fun _ _ hn hs => hn (ht hs)
  agrees s output b b' u u' h h' := by
    rw [bind_apply] at h h'
    split at h
    · rename_i a t hr
      split at h'
      · rename_i a' t' hr'
        obtain ⟨rfl, ht⟩ := hx.agrees s output a a' t t' hr hr'
        rw [ht] at h'
        exact (hf a').agrees t t'.output b b' u u' h h'
      · cases h'
    · cases h

/-- An action that looks at the buffer and the options alone, and changes the buffer alone. -/
theorem of_unshown {act : Action ω α} (h : ∀ s : Session ω, ∃ a buffer,
    ∀ output, act { s with output } = .ok a { s with buffer, output }) : Alike act where
  shown s := by
    obtain ⟨a, buffer, he⟩ := h s
    rw [Ends, he s.output]
    exact id
  agrees s output a a' t t' hr hr' := by
    obtain ⟨a₀, buffer, he⟩ := h s
    cases (he s.output).symm.trans hr
    cases (he output).symm.trans hr'
    exact ⟨rfl, rfl⟩

theorem onBuffer (act : EStateM ε (Buffer ω) α) : Alike (Session.onBuffer act) := by
  refine .of_unshown fun s => ?_
  simp only [onBuffer_apply]
  cases act s.buffer with
  | ok a buffer => exact ⟨_, buffer, fun _ => rfl⟩
  | error e buffer => exact ⟨_, buffer, fun _ => rfl⟩

end Alike

theorem display_alike (text : Text) : Alike (display text : Action ω Unit) where
  shown s := by
    refine (display_ends text s).mono ?_ ?_
    · rintro _ _ ⟨output, hp, rfl⟩
      exact fun hs => hs.of_print hp
    · rintro _ _ ⟨e, output, hp, -, rfl⟩
      exact fun hs => hs.print_ne_error hp
  agrees s output _ _ t t' h h' := by
    obtain ⟨_, -, rfl⟩ := (display_ends text s).ok_of h
    obtain ⟨_, -, rfl⟩ := (display_ends text _).ok_of h'
    exact ⟨rfl, rfl⟩

theorem present_alike (v : Screen.Showing) : Alike (present v : Action ω Unit) where
  shown s := (display_alike (v.page s.options.colour)).shown s
  agrees s := (display_alike (v.page s.options.colour)).agrees s

/-- All that a session does is alike, however the store, the tools and the log answer. -/
theorem handling_alike [Workshop ω] : Handling (ω := ω) Alike where
  pure := .pure
  bind := .bind
  present := present_alike
  appendLog tag text := by
    refine .of_unshown fun s => ?_
    simp only [appendLog_apply]
    cases s.options.log with
    | none => exact ⟨_, s.buffer, fun _ => rfl⟩
    | some path =>
      dsimp only
      cases Workshop.appendLog path tag text s.buffer.store with
      | ok _ store => exact ⟨_, { s.buffer with store }, fun _ => rfl⟩
      | error e store => exact ⟨_, { s.buffer with store }, fun _ => rfl⟩
  callTools := by
    refine .of_unshown fun s => ?_
    simp only [callTools_apply]
    cases Workshop.buildAndRun s.options.source s.buffer.store with
    | ok r store => exact ⟨_, { s.buffer with store }, fun _ => rfl⟩
    | error e store => exact ⟨_, { s.buffer with store }, fun _ => rfl⟩
  enter text := .onBuffer (enter text)
  newRow := display_alike ['\n']
  applyLine line :=
    { shown := fun s => (Alike.onBuffer (Buffer.runLine s.options.skeleton line)).shown s
      agrees := fun s => (Alike.onBuffer (Buffer.runLine s.options.skeleton line)).agrees s }

theorem handleLine_alike [Workshop ω] (line : Text) : Alike (handleLine line : Action ω Flow) :=
  handling_alike.handleLine line

end LineRepl.Session
