import LineRepl.Proofs.KeyDecoding
import LineRepl.Proofs.SplitLine
import LineRepl.Proofs.TypedLines

/-! Reading lines as a pure editor. The editor decodes one key after the other from the bytes to come
and applies it to the two sides of the cursor, until a key or the end of the bytes ends the line. A
terminal that shows what it is told and switches its mode reads the same lines and is left with the
same bytes and the same history, however often a read of its input is interrupted. -/
namespace LineRepl

open Attempt

/-- The bytes that are still to come, and the lines that can be recalled. -/
structure LineEditor where
  input : Bytes
  history : HistoryRing

namespace LineEditor

/-- Applies the keys of some bytes to a line until it is ended. -/
def readFrom (s : SplitLine) (h : HistoryRing) (bytes : Bytes) : ReadOutcome × LineEditor :=
  match _hd : Key.decode bytes with
  | none => (.interrupted, ⟨[], h⟩)
  | some (.interrupt, rest) => (.interrupted, ⟨rest, h⟩)
  | some (.enter, rest) => (.line s.text, ⟨rest, h.submit s.text⟩)
  | some (key, rest) => readFrom (s.press key h).1 (s.press key h).2 rest
termination_by bytes.length
decreasing_by exact Key.length_of_decode _hd

def readLine (e : LineEditor) : ReadOutcome × LineEditor := readFrom {} e.history e.input

/-- Reads so many lines. -/
def readLines : Nat → LineEditor → List ReadOutcome × LineEditor
  | 0, e => ([], e)
  | n + 1, e => (e.readLine.1 :: (readLines n e.readLine.2).1, (readLines n e.readLine.2).2)

end LineEditor

/-! ## Terminals that do not fail -/

/-- Every write succeeds. -/
structure Sink.Unfailing (s : Sink) : Prop where
  room : s.room = none
  faults : ∀ n, s.faults n = none

/-- Every switch succeeds. -/
structure ModeSwitch.Unfailing (m : ModeSwitch) : Prop where
  enter : ∀ n, m.enterFaults n = none
  leave : ∀ n, m.leaveFaults n = none

theorem Sink.Unfailing.print {s : Sink} (h : s.Unfailing) (text : Text) :
    ∃ s', Sink.print text s = .ok () s' ∧ s'.Unfailing := by
  obtain ⟨hr, hf⟩ := h
  refine ⟨take text.utf8 s, ?_, ?_, hf⟩
  · have hb : fitting text.utf8 s = text.utf8 := by rw [fitting, hr]
    rw [Sink.print, put, hf]
    dsimp only
    rw [hb, if_pos rfl]
  · show s.room.map _ = none
    rw [hr]
    rfl

theorem Sink.Unfailing.of_print {s s' : Sink} {text : Text} (h : s.Unfailing)
    (hp : Sink.print text s = .ok () s') : s'.Unfailing := by
  obtain ⟨s₁, hp₁, hs⟩ := h.print text
  cases hp.symm.trans hp₁
  exact hs

theorem Sink.Unfailing.print_ne_error {s s' : Sink} {text : Text} {e : IoError} (h : s.Unfailing) :
    Sink.print text s ≠ .error e s' := by
  obtain ⟨s₁, hp, -⟩ := h.print text
  rw [hp]
  exact nofun

namespace Terminal

variable {t : Terminal} {e : LineEditor}

/-- The terminal is in the state of an editor, and what it is told to show or to switch it does. -/
structure Follows (t : Terminal) (e : LineEditor) : Prop where
  input : t.keyboard.input.Delivers e.input
  history : t.keyboard.history = e.history
  mode : t.keyboard.mode.Unfailing
  screen : t.screen.Unfailing

theorem Follows.enterRaw (h : t.Follows e) : ∃ t', enterRaw t = .ok () t' ∧ t'.Follows e := by
  simp only [Terminal.enterRaw, switch, ModeSwitch.enterRaw, adaptExcept_apply, within_apply, h.mode.enter]
  exact ⟨_, rfl, h.input, h.history, ⟨h.mode.enter, h.mode.leave⟩, h.screen⟩

theorem Follows.leaveRaw (h : t.Follows e) : ∃ t', leaveRaw t = .ok () t' ∧ t'.Follows e := by
  simp only [Terminal.leaveRaw, switch, ModeSwitch.leaveRaw, adaptExcept_apply, within_apply, h.mode.leave]
  exact ⟨_, rfl, h.input, h.history, ⟨h.mode.enter, h.mode.leave⟩, h.screen⟩

theorem Follows.display (h : t.Follows e) (text : Text) :
    ∃ t', display text t = .ok () t' ∧ t'.Follows e := by
  obtain ⟨screen, hp, hs⟩ := h.screen.print text
  simp only [Terminal.display, within_apply, hp]
  exact ⟨_, rfl, h.input, h.history, h.mode, hs⟩

/-! ## Lines -/

/-- The last key of a line is read, and the line is closed. -/
theorem readKeys_of_last_follows (prompt : Text) (l : EditLine) {last : Option Key}
    {input : InputStream} {rest : Bytes} (hr : Key.read t.keyboard.input = .ok last input)
    (hl : Key.endsLine last = true) (hi : input.Delivers rest) (h : t.Follows e) :
    ∃ t', readKeys prompt l t = .ok (outcome l last) (remember l last t') ∧
      t'.Follows ⟨rest, e.history⟩ := by
  have h : (t.readTo input).Follows ⟨rest, e.history⟩ := ⟨hi, h.history, h.mode, h.screen⟩
  obtain ⟨t₁, hl₁, h₁⟩ := h.leaveRaw
  obtain ⟨screen, hp, hs⟩ := h₁.screen.print (lastFrame prompt l last)
  rw [readKeys_of_last hr hl, close_of_shown hl₁ hp]
  exact ⟨_, rfl, h₁.input, h₁.history, h₁.mode, hs⟩

theorem Turn.unfailing {prompt : Text} {key : Key} {l l' : EditLine} {t' : Terminal}
    (h : Turn prompt key l t l' t') (hs : t.screen.Unfailing) : t'.screen.Unfailing := by
  cases hb : repaints key l with
  | true => exact hs.of_print (h.painted hb)
  | false => exact (h.unpainted hb).symm ▸ hs

/-- A key that does not end the line is a turn of the terminal and a step of the editor. -/
theorem exists_turn (prompt : Text) {key : Key} {s : SplitLine} {ring : HistoryRing}
    {bytes rest : Bytes} (hd : Key.decode bytes = some (key, rest))
    (hk : Key.endsLine (some key) = false) (h : t.Follows ⟨bytes, ring⟩) :
    ∃ t', Turn prompt key s.toLine t (s.press key ring).1.toLine t' ∧
      t'.Follows ⟨rest, (s.press key ring).2⟩ := by
  obtain ⟨input, hr, hi⟩ := Key.read_of_decode h.input hd
  have he : edit key s.toLine t.keyboard.history =
      ((s.press key ring).1.toLine, (s.press key ring).2) :=
    h.history ▸ SplitLine.edit_toLine key s ring
  obtain ⟨screen, ht⟩ | ⟨e, screen, hp⟩ := turn_or_unpainted prompt s.toLine hr hk
  · rw [he] at ht
    exact ⟨_, ht, hi, rfl, h.mode, ht.unfailing h.screen⟩
  · exact absurd hp h.screen.print_ne_error

theorem readKeys_follows (prompt : Text) (s : SplitLine) (ring : HistoryRing) (bytes : Bytes)
    (h : t.Follows ⟨bytes, ring⟩) :
    ∃ t', readKeys prompt s.toLine t = .ok (LineEditor.readFrom s ring bytes).1 t' ∧
      t'.Follows (LineEditor.readFrom s ring bytes).2 := by
  -- The editor's recursion is on bytes; the terminal only has to keep up with it.
  fun_induction LineEditor.readFrom s ring bytes generalizing t with
  | case1 s ring bytes hd =>
    obtain ⟨input, hr, hi⟩ := Key.read_delivers h.input
    rw [hd] at hr hi
    obtain ⟨t₁, hk, h₁⟩ := readKeys_of_last_follows prompt s.toLine hr rfl hi h
    exact ⟨t₁, hk, h₁⟩
  | case2 s ring bytes rest hd =>
    obtain ⟨input, hr, hi⟩ := Key.read_of_decode h.input hd
    obtain ⟨t₁, hk, h₁⟩ := readKeys_of_last_follows prompt s.toLine hr rfl hi h
    exact ⟨t₁, hk, h₁⟩
  | case3 s ring bytes rest hd =>
    obtain ⟨input, hr, hi⟩ := Key.read_of_decode h.input hd
    obtain ⟨t₁, hk, h₁⟩ := readKeys_of_last_follows prompt s.toLine hr rfl hi h
    exact ⟨_, hk, h₁.input, congrArg (HistoryRing.submit s.text) h₁.history, h₁.mode, h₁.screen⟩
  | case4 s ring bytes key rest hi hn hd ih =>
    obtain ⟨t₁, ht, h₁⟩ := exists_turn (s := s) prompt hd (Key.endsLine_eq_false hn hi) h
    rw [readKeys_of_turn ht]
    exact ih h₁

theorem readLine_follows (prompt : Text) (h : t.Follows e) :
    ∃ t', readLine prompt t = .ok e.readLine.1 t' ∧ t'.Follows e.readLine.2 := by
  obtain ⟨t₁, he, h₁⟩ := h.enterRaw
  obtain ⟨t₂, hd, h₂⟩ := h₁.display prompt
  rw [readLine_of_typed (.prompted he hd)]
  exact readKeys_follows prompt {} e.history e.input h₂

end Terminal

namespace LineEditor

/-! ## Bytes -/

theorem readFrom_suffix (s : SplitLine) (h : HistoryRing) (bytes : Bytes) :
    (readFrom s h bytes).2.input <:+ bytes := by
  fun_induction readFrom s h bytes with
  | case1 s h bytes hd => exact List.nil_suffix
  | case2 s h bytes rest hd => exact (Key.suffix_of_decode hd).trans (List.tail_suffix _)
  | case3 s h bytes rest hd => exact (Key.suffix_of_decode hd).trans (List.tail_suffix _)
  | case4 s h bytes key rest hi hn hd ih =>
    exact ih.trans ((Key.suffix_of_decode hd).trans (List.tail_suffix _))

theorem readLines_suffix (n : Nat) (e : LineEditor) : (readLines n e).2.input <:+ e.input := by
  induction n generalizing e with
  | zero => exact List.suffix_refl _
  | succ n ih => exact (ih e.readLine.2).trans (readFrom_suffix {} e.history e.input)

end LineEditor

namespace Terminal

theorem readLines_follows (prompts : List Text) (h : t.Follows e) :
    ∃ t', prompts.mapM readLine t = .ok (e.readLines prompts.length).1 t' ∧
      t'.Follows (e.readLines prompts.length).2 := by
  induction prompts generalizing t e with
  | nil => exact ⟨t, rfl, h⟩
  | cons prompt prompts ih =>
    obtain ⟨t₁, hr, h₁⟩ := readLine_follows prompt h
    obtain ⟨t₂, hrs, h₂⟩ := ih h₁
    refine ⟨t₂, ?_, h₂⟩
    simp only [List.mapM_cons, bind_apply, hr, hrs, pure_apply]
    rfl

/-- **Reading lines is editing them.** On an input of bytes, with interrupted reads among them, and
with a screen and a mode that do not fail, the lines read one after the other under any prompts are
those of the editor, each read succeeds, and after them the terminal has the history of the editor and
still delivers just the bytes that the editor has not used: the end of what it had to begin with. -/
theorem readLines_refine (prompts : List Text) (t : Terminal) (bytes : Bytes)
    (hi : t.keyboard.input.Delivers bytes) (hm : t.keyboard.mode.Unfailing)
    (hs : t.screen.Unfailing) :
    ∃ outcomes t' e',
      LineEditor.readLines prompts.length ⟨bytes, t.keyboard.history⟩ = (outcomes, e') ∧
      prompts.mapM readLine t = .ok outcomes t' ∧ t'.keyboard.history = e'.history ∧
      t'.keyboard.input.Delivers e'.input ∧ e'.input <:+ bytes := by
  have h : t.Follows ⟨bytes, t.keyboard.history⟩ := ⟨hi, rfl, hm, hs⟩
  obtain ⟨t', hr, ht⟩ := readLines_follows prompts h
  exact ⟨_, t', _, rfl, hr, ht.history, ht.input, LineEditor.readLines_suffix _ _⟩

/-- A terminal with reads that are interrupted, also within an escape sequence. The keys are those of
`a`, left, `b`, return, up, `c`, return and `d`. -/
def interrupting : Terminal where
  keyboard := {
    input := {
      readings := [.interrupted, .byte 0x61, .byte 0x1B, .interrupted, .byte 0x5B, .byte 0x44,
        .byte 0x62, .byte 0x0D, .byte 0x1B, .byte 0x5B, .byte 0x41, .interrupted, .interrupted,
        .byte 0x63, .byte 0x0D, .byte 0x64] }
    history := HistoryRing.ofCapacity 1 }

theorem readLines_refine_interrupted :
    ∃ t', [['>'], ['>', '>']].mapM readLine interrupting =
        .ok [.line ['b', 'a'], .line ['b', 'a', 'c']] t' ∧
      t'.keyboard.input.Delivers [0x64] := by
  have hi : interrupting.keyboard.input.Delivers
      (interrupting.keyboard.input.readings.filterMap Reading.byte?) := by
    refine ⟨rfl, ?_, rfl⟩
    simp [interrupting]
  have hm : interrupting.keyboard.mode.Unfailing := ⟨fun _ => rfl, fun _ => rfl⟩
  have hs : interrupting.screen.Unfailing := ⟨rfl, fun _ => rfl⟩
  obtain ⟨outcomes, t', e', he, hr, -, hd, -⟩ :=
    readLines_refine [['>'], ['>', '>']] interrupting _ hi hm hs
  have ho : outcomes = [.line ['b', 'a'], .line ['b', 'a', 'c']] :=
    (congrArg Prod.fst he).symm.trans (by decide +kernel)
  have hb : e'.input = [0x64] := (congrArg (·.2.input) he).symm.trans (by decide +kernel)
  rw [ho] at hr
  rw [hb] at hd
  exact ⟨t', hr, hd⟩

end Terminal
end LineRepl
