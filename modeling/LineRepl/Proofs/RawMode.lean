import LineRepl.Proofs.TerminalFailures
import LineRepl.Proofs.TypedLines

/-! Raw mode around the reading of a line. Whatever fails, each reading asks once to enter raw mode
and once to leave it if it was entered, and leaving comes before the last frame. Only these two calls can
make it fail with an error of the mode. The history takes a line when the reading returns one and
never otherwise. -/
namespace LineRepl

open Attempt

/-- Two rings hold the same lines and fill the same slot next. They may recall from different ones. -/
def HistoryRing.SameLines (r r' : HistoryRing) : Prop := r'.slots = r.slots ∧ r'.put = r.put

theorem HistoryRing.SameLines.trans {r r₁ r₂ : HistoryRing} (h : r.SameLines r₁)
    (h' : r₁.SameLines r₂) : r.SameLines r₂ :=
  ⟨h'.1.trans h.1, h'.2.trans h.2⟩

theorem HistoryRing.recallNext_sameLines (r : HistoryRing) : r.SameLines r.recallNext.2 := by
  unfold recallNext
  split <;> exact ⟨rfl, rfl⟩

theorem HistoryRing.recallPrevious_sameLines (r : HistoryRing) : r.SameLines r.recallPrevious.2 := by
  unfold recallPrevious
  split
  · exact r.recallNext_sameLines
  · exact ⟨rfl, rfl⟩

namespace Terminal

variable {prompt : Text} {l l' : EditLine} {key : Key} {last : Option Key} {t t₁ t₂ : Terminal}

/-- From `t` to `t'` the mode was switched by these calls. -/
def Switches (t t' : Terminal) (calls : List ModeEvent) : Prop :=
  t'.keyboard.mode.events = t.keyboard.mode.events ++ calls

theorem Switches.trans {calls calls' : List ModeEvent} (h : Switches t t₁ calls)
    (h' : Switches t₁ t₂ calls') : Switches t t₂ (calls ++ calls') := by
  unfold Switches at *
  rw [h', h, List.append_assoc]

/-! ## The two calls -/

theorem enterRaw_switches (t : Terminal) :
    Ends enterRaw t (fun _ t' => Switches t t' [.raw] ∧ ∃ mode, t' = t.atMode mode)
      fun e t' => Switches t t' [.enterFailed] ∧ (∃ mode, t' = t.atMode mode) ∧
        ∃ io, e = .rawMode io := by
  refine (switch_ends (ModeSwitch.enterRaw_ends _)).mono ?_ ?_
  · rintro _ _ ⟨mode, hm, rfl⟩
    exact ⟨hm, mode, rfl⟩
  · rintro _ _ ⟨io, rfl, mode, hm, rfl⟩
    exact ⟨hm, ⟨mode, rfl⟩, io, rfl⟩

theorem leaveRaw_switches (t : Terminal) :
    Ends leaveRaw t (fun _ t' => Switches t t' [.cooked] ∧ ∃ mode, t' = t.atMode mode)
      fun e t' => Switches t t' [.leaveFailed] ∧ (∃ mode, t' = t.atMode mode) ∧
        ∃ io, e = .rawMode io := by
  refine (switch_ends (ModeSwitch.leaveRaw_ends _)).mono ?_ ?_
  · rintro _ _ ⟨mode, hm, rfl⟩
    exact ⟨hm, mode, rfl⟩
  · rintro _ _ ⟨io, rfl, mode, hm, rfl⟩
    exact ⟨hm, ⟨mode, rfl⟩, io, rfl⟩

/-- However leaving ends, it was one call. -/
theorem leaveRaw_once (t : Terminal) : Switches t (final (leaveRaw t)) [.cooked] ∨
    Switches t (final (leaveRaw t)) [.leaveFailed] := by
  cases h : leaveRaw t with
  | ok a t' => exact .inl ((leaveRaw_switches t).ok_of h).1
  | error e t' => exact .inr ((leaveRaw_switches t).error_of h).1

theorem leaveRaw_final (t : Terminal) : ∃ mode, final (leaveRaw t) = t.atMode mode := by
  cases h : leaveRaw t with
  | ok a t' => exact ((leaveRaw_switches t).ok_of h).2
  | error e t' => exact ((leaveRaw_switches t).error_of h).2.1

/-! ## While the line is typed -/

/-- Since `t` raw mode was entered and not left, and the history holds what it held. -/
structure Held (t t₁ : Terminal) : Prop where
  raw : Switches t t₁ [.raw]
  lines : t.keyboard.history.SameLines t₁.keyboard.history

theorem enterRaw_held (h : enterRaw t = .ok () t₁) : Held t t₁ := by
  obtain ⟨hs, mode, rfl⟩ := (enterRaw_switches t).ok_of h
  exact ⟨hs, rfl, rfl⟩

theorem Held.of_keyboard (h : Held t t₁) (hk : t₂.keyboard = t₁.keyboard) : Held t t₂ := by
  obtain ⟨hs, hl⟩ := h
  refine ⟨?_, ?_⟩
  · unfold Switches
    rw [hk]
    exact hs
  · rw [hk]
    exact hl

theorem keyboard_of_display {text : Text} {r : EStateM.Result IoError Terminal Unit}
    (h : display text t = r) : (final r).keyboard = t.keyboard := by
  rw [← h]
  simp only [display, within_apply]
  cases Sink.print text t.screen <;> rfl

/-- Editing only moves the recall cursor of the history. -/
theorem edit_sameLines (key : Key) (l : EditLine) (h : HistoryRing) :
    h.SameLines (edit key l h).2 := by
  cases key with
  | up => exact h.recallPrevious_sameLines
  | down => exact h.recallNext_sameLines
  | _ => exact ⟨rfl, rfl⟩

theorem Typed.held (h : Typed prompt t l t₁) : Held t t₁ := by
  induction h with
  | prompted he hd =>
    exact (enterRaw_held he).of_keyboard (keyboard_of_display hd)
  | @turn key l l' t₁ t₂ h ht ih =>
    have he := edit_sameLines key l t₁.keyboard.history
    rw [ht.edited] at he
    refine ⟨?_, ih.lines.trans he⟩
    unfold Switches
    rw [ht.mode]
    exact ih.raw

theorem Typed.entered (h : Typed prompt t l t₁) : ∃ t₀, enterRaw t = .ok () t₀ := by
  induction h with
  | prompted he hd => exact ⟨_, he⟩
  | turn h ht ih => exact ih

theorem Closes.held (h : Closes prompt t l last t₁) : Held t t₁ := by
  obtain ⟨h, -, -⟩ := h
  exact ⟨h.held.raw, h.held.lines⟩

/-! ## Ways out -/

/-- For the mode there are three ways out: it is not entered, the reading is given up in it, or the
line is closed. -/
theorem Ending.cases {r : EStateM.Result InputError Terminal ReadOutcome} (h : Ending prompt t r) :
    (∃ e t₁, enterRaw t = .error e t₁ ∧ r = .error e t₁) ∨
      (∃ e t₀ t₁, enterRaw t = .ok () t₀ ∧ Held t t₁ ∧ r = .error (.io e) (final (leaveRaw t₁))) ∨
      ∃ l last t₁, Closes prompt t l last t₁ ∧ r = close prompt l last t₁ := by
  cases h with
  | refused he => exact .inl ⟨_, _, he, rfl⟩
  | @unprompted e t₁ t₂ he hd =>
    have hk := (enterRaw_held he).of_keyboard (keyboard_of_display hd)
    exact .inr (.inl ⟨e, t₁, t₂, he, hk, abandon_apply e t₂⟩)
  | @unread l t₁ e input h hr =>
    obtain ⟨t₀, he⟩ := h.entered
    have hk : Held t (t₁.readTo input) := ⟨h.held.raw, h.held.lines⟩
    exact .inr (.inl ⟨e, t₀, _, he, hk, abandon_apply e _⟩)
  | @unpainted l t₁ key keyboard e frame screen h hm hh hp =>
    obtain ⟨t₀, he⟩ := h.entered
    have hl := edit_sameLines key l t₁.keyboard.history
    rw [← hh] at hl
    have hs : Switches t ⟨keyboard, screen⟩ [.raw] := by
      unfold Switches
      rw [hm]
      exact h.held.raw
    exact .inr (.inl ⟨e, t₀, _, he, ⟨hs, h.held.lines.trans hl⟩, abandon_apply e _⟩)
  | closed h => exact .inr (.inr ⟨_, _, _, h, rfl⟩)

theorem history_of_remember (l : EditLine) (last : Option Key) (t : Terminal) :
    (remember l last t).keyboard.history = match outcome l last with
      | .line text => t.keyboard.history.submit text
      | .interrupted => t.keyboard.history := by
  unfold remember outcome
  split <;> rfl

theorem mode_of_remember (l : EditLine) (last : Option Key) (t : Terminal) :
    (remember l last t).keyboard.mode = t.keyboard.mode := by
  unfold remember
  split <;> rfl

theorem screen_of_remember (l : EditLine) (last : Option Key) (t : Terminal) :
    (remember l last t).screen = t.screen := by
  unfold remember
  split <;> rfl

/-- Closing a line leaves raw mode, and then shows the last frame on the screen that is there. -/
theorem close_final (prompt : Text) (l : EditLine) (last : Option Key) (h : leaveRaw t = .ok () t₁) :
    (final (close prompt l last t)).keyboard.mode = t₁.keyboard.mode ∧
      (final (close prompt l last t)).screen =
        final (Sink.print (lastFrame prompt l last) t₁.screen) := by
  cases hp : Sink.print (lastFrame prompt l last) t₁.screen with
  | ok _ screen =>
    rw [close_of_shown h hp]
    exact ⟨mode_of_remember _ _ _, screen_of_remember _ _ _⟩
  | error e screen =>
    rw [close_of_unshown h hp]
    exact ⟨rfl, rfl⟩

/-- What closing a line makes of the history: it takes the line that is returned, and no other. -/
theorem close_history (prompt : Text) (l : EditLine) (last : Option Key) (t : Terminal) :
    Ends (close prompt l last) t
      (fun o t' => t'.keyboard.history = match o with
        | .line text => t.keyboard.history.submit text
        | .interrupted => t.keyboard.history)
      fun _ t' => t'.keyboard.history = t.keyboard.history := by
  unfold Ends
  obtain ⟨e, t₁, hl, hc⟩ | ⟨t₁, e, screen, hl, -, hc⟩ | ⟨t₁, screen, hl, -, hc⟩ :=
    close_cases prompt l last t
  · obtain ⟨-, ⟨mode, rfl⟩, -⟩ := (leaveRaw_switches t).error_of hl
    rw [hc]
    rfl
  · obtain ⟨-, mode, rfl⟩ := (leaveRaw_switches t).ok_of hl
    rw [hc]
    rfl
  · obtain ⟨-, mode, rfl⟩ := (leaveRaw_switches t).ok_of hl
    rw [hc]
    exact history_of_remember l last _

/-- Only closing the line gives an outcome. -/
theorem closes_of_ok {o : ReadOutcome} {t' : Terminal} (h : readLine prompt t = .ok o t') :
    ∃ l last t₁, Closes prompt t l last t₁ ∧ close prompt l last t₁ = .ok o t' := by
  have he := readLine_ending prompt t
  rw [h] at he
  obtain ⟨e, t₁, -, hr⟩ | ⟨e, -, t₁, -, -, hr⟩ | ⟨l, last, t₁, hc, hr⟩ := he.cases
  · cases hr
  · cases hr
  · exact ⟨l, last, t₁, hc, hr.symm⟩

/-! ## The reading as a whole -/

theorem readLine_of_refused {e : InputError} (he : enterRaw t = .error e t₁) :
    readLine prompt t = .error e t₁ := by
  simp only [readLine, he]

theorem close_switches (prompt : Text) (l : EditLine) (last : Option Key) (t : Terminal) :
    Switches t (final (close prompt l last t)) [.cooked] ∨
      Switches t (final (close prompt l last t)) [.leaveFailed] := by
  have ho := leaveRaw_once t
  cases hl : leaveRaw t with
  | error e t₁ =>
    rw [hl] at ho
    rw [close_of_stuck hl]
    exact ho
  | ok _ t₁ =>
    rw [hl] at ho
    unfold Switches at *
    rw [(close_final prompt l last hl).1]
    exact ho

theorem readLine_switches (prompt : Text) (he : enterRaw t = .ok () t₁) :
    Switches t (final (readLine prompt t)) [.raw, .cooked] ∨
      Switches t (final (readLine prompt t)) [.raw, .leaveFailed] := by
  obtain ⟨e, t₂, he', hr⟩ | ⟨e, -, t₂, -, hk, hr⟩ | ⟨l, last, t₂, hc, hr⟩ :=
    (readLine_ending prompt t).cases
  · cases he.symm.trans he'
  · rw [hr]
    exact (leaveRaw_once t₂).imp hk.raw.trans hk.raw.trans
  · rw [hr]
    exact (close_switches prompt l last t₂).imp hc.held.raw.trans hc.held.raw.trans

theorem readLine_modeError_iff (prompt : Text) (t : Terminal) :
    (∃ e t', readLine prompt t = .error (.rawMode e) t') ↔ (∃ e t₁, enterRaw t = .error e t₁) ∨
      ∃ l last t₁ e t₂, Closes prompt t l last t₁ ∧ leaveRaw t₁ = .error e t₂ := by
  constructor
  · rintro ⟨e, t', hr⟩
    have h := readLine_ending prompt t
    rw [hr] at h
    obtain ⟨e, t₁, he, -⟩ | ⟨e, -, t₁, -, -, hr⟩ | ⟨l, last, t₁, hc, hr⟩ := h.cases
    · exact .inl ⟨e, t₁, he⟩
    · cases hr
    · obtain ⟨e, t₂, hl, -⟩ | ⟨t₂, e, screen, -, -, hr'⟩ | ⟨t₂, screen, -, -, hr'⟩ :=
        close_cases prompt l last t₁
      · exact .inr ⟨l, last, t₁, e, t₂, hc, hl⟩
      · cases hr.trans hr'
      · cases hr.trans hr'
  · rintro (⟨e, t₁, he⟩ | ⟨l, last, t₁, e, t₂, hc, hl⟩)
    · obtain ⟨-, -, io, rfl⟩ := (enterRaw_switches t).error_of he
      exact ⟨io, t₁, readLine_of_refused he⟩
    · obtain ⟨-, -, io, rfl⟩ := (leaveRaw_switches t₁).error_of hl
      exact ⟨io, t₂, (readLine_of_closes hc).trans (close_of_stuck hl)⟩

theorem readLine_unsubmitted (prompt : Text) (t : Terminal)
    (hn : ∀ text t', readLine prompt t ≠ .ok (.line text) t') :
    t.keyboard.history.SameLines (final (readLine prompt t)).keyboard.history := by
  obtain ⟨e, t₁, he, hr⟩ | ⟨e, -, t₁, -, hk, hr⟩ | ⟨l, last, t₁, hc, hr⟩ :=
    (readLine_ending prompt t).cases
  · obtain ⟨-, ⟨mode, rfl⟩, -⟩ := (enterRaw_switches t).error_of he
    rw [hr]
    exact ⟨rfl, rfl⟩
  · obtain ⟨mode, hm⟩ := leaveRaw_final t₁
    rw [hr]
    show t.keyboard.history.SameLines (final (leaveRaw t₁)).keyboard.history
    rw [hm]
    exact hk.lines
  · have hh := close_history prompt l last t₁
    rw [hr] at hn ⊢
    rcases hx : close prompt l last t₁ with ⟨text | _, t'⟩ | ⟨e, t'⟩
    · exact absurd hx (hn text t')
    · exact hh.ok_of hx ▸ hc.held.lines
    · exact hh.error_of hx ▸ hc.held.lines

/-- What holds of the mode and of the history when a reading has ended. -/
structure Bracketed (prompt : Text) (t : Terminal)
    (r : EStateM.Result InputError Terminal ReadOutcome) : Prop where
  /-- A mode that is not entered is not left. -/
  refused : ∀ e t₁, enterRaw t = .error e t₁ → r = .error e t₁ ∧ Switches t t₁ [.enterFailed]
  /-- A mode that is entered is left once, or at least that is tried once. -/
  left : ∀ t₁, enterRaw t = .ok () t₁ →
    Switches t (final r) [.raw, .cooked] ∨ Switches t (final r) [.raw, .leaveFailed]
  /-- After the last key the mode is left first. Only then the last frame is shown, and not at all if
  leaving fails. -/
  leftFirst : ∀ l last t₁, Closes prompt t l last t₁ → Switches t t₁ [.raw] ∧
    match leaveRaw t₁ with
    | .error e t₂ => t₂.screen = t₁.screen ∧ r = .error e t₂
    | .ok _ t₂ => t₂.screen = t₁.screen ∧ Switches t t₂ [.raw, .cooked] ∧
        (final r).keyboard.mode = t₂.keyboard.mode ∧
        (final r).screen = final (Sink.print (lastFrame prompt l last) t₂.screen)
  /-- Errors of the mode are those of entering, and those of leaving after the last key. -/
  modeError : (∃ e t', r = .error (.rawMode e) t') ↔ (∃ e t₁, enterRaw t = .error e t₁) ∨
    ∃ l last t₁ e t₂, Closes prompt t l last t₁ ∧ leaveRaw t₁ = .error e t₂
  /-- The history takes the line that is returned. -/
  submitted : ∀ text t', r = .ok (.line text) t' →
    ∃ h, t.keyboard.history.SameLines h ∧ t'.keyboard.history = h.submit text
  /-- It takes no other line. -/
  unsubmitted : (∀ text t', r ≠ .ok (.line text) t') →
    t.keyboard.history.SameLines (final r).keyboard.history

/-- **Raw mode is bracketed**, whatever fails on the way. -/
theorem raw_mode_bracketed (prompt : Text) (t : Terminal) :
    Bracketed prompt t (readLine prompt t) where
  refused e t₁ he := ⟨readLine_of_refused he, ((enterRaw_switches t).error_of he).1⟩
  left t₁ he := readLine_switches prompt he
  leftFirst l last t₁ hc := by
    refine ⟨hc.held.raw, ?_⟩
    rw [readLine_of_closes hc]
    cases hl : leaveRaw t₁ with
    | error e t₂ =>
      obtain ⟨-, ⟨mode, rfl⟩, -⟩ := (leaveRaw_switches t₁).error_of hl
      exact ⟨rfl, close_of_stuck hl⟩
    | ok _ t₂ =>
      have hf := close_final prompt l last hl
      obtain ⟨hs, mode, rfl⟩ := (leaveRaw_switches t₁).ok_of hl
      exact ⟨rfl, hc.held.raw.trans hs, hf⟩
  modeError := readLine_modeError_iff prompt t
  submitted text t' hr := by
    obtain ⟨l, last, t₁, hc, hx⟩ := closes_of_ok hr
    exact ⟨_, hc.held.lines, (close_history prompt l last t₁).ok_of hx⟩
  unsubmitted := readLine_unsubmitted prompt t

end Terminal
end LineRepl
