import LineRepl.Session.Run

/-! The rounds of a session. A round prompts, reads a line and handles it. A run is one round after the
other as long as they let it go on, so that what every round keeps holds whenever the session
prompts. -/
namespace LineRepl.Session

variable {ω : Type} [Workshop ω] {keyboard keyboard₁ keyboard₂ : Keyboard} {s s₁ s₂ : Session ω}
  {line : Text} {flow : Flow}

/-- A line is read and handled, and `flow` says whether the session prompts again. -/
inductive Round (keyboard : Keyboard) (s : Session ω) (line : Text) (flow : Flow)
    (keyboard' : Keyboard) (s' : Session ω) : Prop
  | intro {screen : Sink} :
      Terminal.readLine (Screen.prompt s.buffer.cursor) ⟨keyboard, s.output⟩ =
        .ok (.line line) ⟨keyboard', screen⟩ →
      handleLine line { s with output := screen } = .ok flow s' →
      Round keyboard s line flow keyboard' s'

/-- Rounds that let the session go on lead from one prompt to another. -/
inductive Reached (keyboard : Keyboard) (s : Session ω) : Keyboard → Session ω → Prop
  | start : Reached keyboard s keyboard s
  | round {keyboard₁ keyboard₂ : Keyboard} {s₁ s₂ : Session ω} {line : Text} :
      Reached keyboard s keyboard₁ s₁ → Round keyboard₁ s₁ line .proceed keyboard₂ s₂ →
      Reached keyboard s keyboard₂ s₂

theorem run_of_proceed (h : Round keyboard s line .proceed keyboard₁ s₁) :
    run keyboard s = run keyboard₁ s₁ := by
  obtain ⟨hr, hh⟩ := h
  rw [run.eq_def]
  split <;> rename_i hr' <;> rw [hr] at hr' <;> cases hr'
  rw [hh]

/-- A run comes by each prompt that is reached. -/
theorem run_of_reached (h : Reached keyboard s keyboard₁ s₁) :
    run keyboard s = run keyboard₁ s₁ := by
  induction h with
  | start => rfl
  | round h hr ih => rw [ih, run_of_proceed hr]

end LineRepl.Session
