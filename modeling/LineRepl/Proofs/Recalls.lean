import LineRepl.Proofs.AlikeSessions
import LineRepl.Proofs.PrintableLines
import LineRepl.Proofs.SubmittedLines

/-! Recalling is retyping. Right after a line was submitted the ring recalls just this line, and what
recalling does to the ring is undone when the line is submitted again. The other way to the same
keyboard is to type the line out, which is possible since it is printable. From there on the rows that
were painted are the only difference, and the session does not look at them. -/
namespace LineRepl

open Attempt

/-! ## The ring -/

namespace HistoryRing

/-- A line that was just submitted is the first to be recalled. -/
theorem recallPrevious_submit (r : HistoryRing) {line : Text} (h : line ≠ []) :
    (r.submit line).recallPrevious = (line, (r.submit line).moveBack) := by
  have hl : (r.submit line).recalled = line := Array.getElem_set_self r.put_lt
  rw [recallPrevious, hl, if_neg (by simpa using h)]

/-- A line is remembered where the last one was not, wherever recalling has gone. -/
theorem submit_moveBack (r : HistoryRing) (line : Text) : r.moveBack.submit line = r.submit line := rfl

end HistoryRing

namespace Terminal

variable {t : Terminal} {line : Text} {rest : InputStream}

/-- To recall the line that was just submitted, and submit it again, is to submit it typed out. -/
theorem readLine_resubmits (prompt : Text) {r : HistoryRing} (hr : t.keyboard.history = r.submit line)
    (hl : line ≠ []) (hy : t.keyboard.input.Yields [0x1B, 0x5B, 0x41, 0x0D] rest) :
    Ends (readLine prompt) t (Submits t (.ofText line, t.keyboard.history) [.raw, .cooked] rest)
      fun _ _ => ¬ t.Unfailing := by
  refine (readLine_recalls prompt hy).mono (fun o t' h => ?_) fun _ _ => id
  rw [hr, r.recallPrevious_submit hl] at h
  -- the rings differ in what would be recalled next, and submitting sets that anew
  refine ⟨h.outcome, h.keyboard.trans ?_, h.screen⟩
  rw [hr, HistoryRing.submit_moveBack]

end Terminal

namespace Session

variable {ω : Type} [Workshop ω] {keyboard keyboard₁ : Keyboard} {s s₁ : Session ω}
  {line text : Text} {flow : Flow} {rest : InputStream}

/-- From this prompt the line is submitted, and `rest` is still to be read, unless something fails. -/
def Resubmits (line : Text) (rest : InputStream) (keyboard : Keyboard) (s : Session ω) : Prop :=
  Ends (Terminal.readLine (Screen.prompt s.buffer.cursor)) ⟨keyboard, s.output⟩
    (Terminal.Submits ⟨keyboard, s.output⟩ (.ofText line, keyboard.history) [.raw, .cooked] rest)
    fun _ _ => ¬ Terminal.Unfailing ⟨keyboard, s.output⟩

/-- The keyboard after such a round. -/
def resubmitted (line : Text) (rest : InputStream) (keyboard : Keyboard) : Keyboard :=
  ⟨rest, keyboard.mode.after [.raw, .cooked], keyboard.history.submit line⟩

theorem Resubmits.of_round (h : Resubmits line rest keyboard s)
    (hr : Round keyboard s text flow keyboard₁ s₁) :
    text = line ∧ keyboard₁ = resubmitted line rest keyboard ∧
      ∃ output, handleLine line { s with output } = .ok flow s₁ := by
  obtain ⟨hread, hh⟩ := hr
  have hs := h.ok_of hread
  obtain rfl := ReadOutcome.line.inj hs.outcome
  exact ⟨rfl, hs.keyboard, _, hh⟩

theorem Resubmits.exists_round (h : Resubmits line rest keyboard s) (hm : keyboard.mode.Unfailing)
    (ho : s.output.Unfailing) :
    ∃ flow s₁, Round keyboard s line flow (resubmitted line rest keyboard) s₁ ∧
      s₁.output.Unfailing := by
  obtain ⟨o, ⟨keyboard₁, screen⟩, hread, hs⟩ := h.exists_ok fun _ _ hn => hn ⟨hm, ho⟩
  obtain rfl := hs.outcome
  obtain rfl : keyboard₁ = resubmitted line rest keyboard := hs.keyboard
  have ht : screen.Unfailing := hs.screen ho
  obtain ⟨flow, s₁, hh, h₁⟩ :=
    ((handleLine_alike line).shown { s with output := screen }).exists_ok fun _ _ hn => hn ht
  exact ⟨flow, s₁, .intro hread hh, h₁ ht⟩

/-- Rounds that submit the same line from the same prompt differ in what they show. -/
theorem agree_of_handled {output₁ output₂ : Sink} {flow₁ flow₂ : Flow} {s₁ s₂ : Session ω}
    (h₁ : handleLine line { s with output := output₁ } = .ok flow₁ s₁)
    (h₂ : handleLine line { s with output := output₂ } = .ok flow₂ s₂) :
    flow₂ = flow₁ ∧ s₂ = { s₁ with output := s₂.output } :=
  (handleLine_alike line).agrees { s with output := output₁ } output₂ _ _ _ _ h₁ h₂

/-- **Recalling is retyping.** After a line that was not empty and did not end the session, the keys up
and return and the bytes of the line and return lead from the same prompt to the same keyboard, with
the same ring, to the same decision, and to sessions that differ in their output only: with the same
buffer, and with the same calls of the tools, each on the same store. And both lead there, when what is
shown is taken and the mode can be switched. -/
theorem recalling_retypes {s₀ s s' : Session (Observed ω)} {keyboard₀ keyboard keyboard' : Keyboard}
    {capacity : Nat} (hfresh : keyboard₀.history = .ofCapacity capacity)
    (hreach : Reached keyboard₀ s₀ keyboard s) (hround : Round keyboard s line .proceed keyboard' s')
    (hne : line ≠ []) {recalling typing : InputStream}
    (hrecall : recalling.Yields [0x1B, 0x5B, 0x41, 0x0D] rest)
    (htype : typing.Yields (line.utf8 ++ [0x0D]) rest) :
    (∀ line₁ line₂ flow₁ flow₂ keyboard₁ keyboard₂ s₁ s₂,
      Round { keyboard' with input := recalling } s' line₁ flow₁ keyboard₁ s₁ →
      Round { keyboard' with input := typing } s' line₂ flow₂ keyboard₂ s₂ →
        line₁ = line ∧ line₂ = line ∧ flow₂ = flow₁ ∧ keyboard₂ = keyboard₁ ∧
          s₂ = { s₁ with output := s₂.output }) ∧
    (keyboard'.mode.Unfailing → s'.output.Unfailing → ∃ flow keyboard₁ s₁ output,
      Round { keyboard' with input := recalling } s' line flow keyboard₁ s₁ ∧
        Round { keyboard' with input := typing } s' line flow keyboard₁ { s₁ with output }) := by
  have hring := hreach.printable (hfresh ▸ HistoryRing.printable_ofCapacity capacity)
  have hline := (hround.printable hring).1
  obtain ⟨r, hr⟩ : ∃ r, keyboard'.history = HistoryRing.submit line r := by
    obtain ⟨hread, -⟩ := hround
    obtain ⟨l, t₁, -, rfl, hh⟩ := Terminal.closes_of_line hread
    exact ⟨_, hh⟩
  have hup : Resubmits line rest { keyboard' with input := recalling } s' :=
    Terminal.readLine_resubmits _ (t := ⟨{ keyboard' with input := recalling }, _⟩) hr hne hrecall
  have htext : Resubmits line rest { keyboard' with input := typing } s' :=
    Terminal.readLine_types _ (t := ⟨{ keyboard' with input := typing }, _⟩) hline htype
  constructor
  · intro line₁ line₂ flow₁ flow₂ keyboard₁ keyboard₂ s₁ s₂ h₁ h₂
    obtain ⟨rfl, rfl, output₁, hh₁⟩ := hup.of_round h₁
    obtain ⟨rfl, rfl, output₂, hh₂⟩ := htext.of_round h₂
    obtain ⟨hflow, hs⟩ := agree_of_handled hh₁ hh₂
    exact ⟨rfl, rfl, hflow, rfl, hs⟩
  · intro hm ho
    obtain ⟨flow₁, s₁, h₁, -⟩ := hup.exists_round hm ho
    obtain ⟨flow₂, s₂, h₂, -⟩ := htext.exists_round hm ho
    obtain ⟨-, -, output₁, hh₁⟩ := hup.of_round h₁
    obtain ⟨-, -, output₂, hh₂⟩ := htext.of_round h₂
    obtain ⟨rfl, hs⟩ := agree_of_handled hh₁ hh₂
    rw [hs] at h₂
    exact ⟨flow₂, _, s₁, s₂.output, h₁, h₂⟩

/-- A session over the closing line in memory, under observation. -/
def observedBlock : Session (Observed Rehearsal) where
  buffer :=
    { store := { inner := (rehearsed Buffer.closingLine 1 .insert).buffer.store }
      index := LineIndex.scan Buffer.closingLine }
  options := block

/-- A program line is recalled from a ring for one line. -/
theorem recalling_retypes_program :
    ∃ keyboard' s' flow keyboard₁ s₁ output,
      Round ⟨.ofBytes [0x78, 0x3B, 0x0D], {}, .ofCapacity 1⟩ observedBlock ['x', ';'] .proceed
        keyboard' s' ∧
      Round { keyboard' with input := .ofBytes [0x1B, 0x5B, 0x41, 0x0D] } s' ['x', ';'] flow
        keyboard₁ s₁ ∧
      Round { keyboard' with input := .ofBytes [0x78, 0x3B, 0x0D] } s' ['x', ';'] flow keyboard₁
        { s₁ with output } := by
  have hm : ({} : ModeSwitch).Unfailing := ⟨fun _ => rfl, fun _ => rfl⟩
  have ho : observedBlock.output.Unfailing := ⟨rfl, fun _ => rfl⟩
  have hup : (InputStream.ofBytes [0x1B, 0x5B, 0x41, 0x0D]).Yields [0x1B, 0x5B, 0x41, 0x0D]
      (.ofBytes []) :=
    .cons rfl (.cons rfl (.cons rfl (.cons rfl (.nil _))))
  have htext : (InputStream.ofBytes [0x78, 0x3B, 0x0D]).Yields (Text.utf8 ['x', ';'] ++ [0x0D])
      (.ofBytes []) :=
    .cons rfl (.cons rfl (.cons rfl (.nil _)))
  have hfirst : Resubmits ['x', ';'] (.ofBytes []) ⟨.ofBytes [0x78, 0x3B, 0x0D], {}, .ofCapacity 1⟩
      observedBlock :=
    Terminal.readLine_types _ (t := ⟨⟨_, _, _⟩, _⟩) (by decide) htext
  obtain ⟨flow, s', h, hs⟩ := hfirst.exists_round hm ho
  have hflow : flow = .proceed := by
    obtain ⟨-, hh⟩ := h
    rw [handleLine_text (by decide), bind_apply] at hh
    split at hh
    · exact (EStateM.Result.ok.inj hh).1.symm
    · cases hh
  subst hflow
  obtain ⟨flow, keyboard₁, s₁, output, h₁, h₂⟩ :=
    (recalling_retypes rfl .start h (by decide) hup htext).2 (hm.after _) hs
  exact ⟨_, s', flow, keyboard₁, s₁, output, h, h₁, h₂⟩

end Session
end LineRepl
