import LineRepl.Proofs.Ends
import LineRepl.Session.Run

/-! A line while it is typed, and how the reading of it ends. Between the prompt and the key that ends
the line, one turn after the other reads a key, edits the line and paints the row where the key asks
for it. What holds of the prompted terminal and is kept by a turn holds whenever a key is awaited; and
from there the reading can end in five ways only. -/
namespace LineRepl

open Attempt

/-- Whether a key ends the line, as the end of the input does. -/
def Key.endsLine : Option Key → Bool
  | none | some .enter | some .interrupt => true
  | some _ => false

theorem Key.endsLine_eq_false {key : Key} (he : key ≠ .enter) (hi : key ≠ .interrupt) :
    endsLine (some key) = false := by
  cases key with
  | enter => exact absurd rfl he
  | interrupt => exact absurd rfl hi
  | _ => rfl

namespace Terminal

variable {prompt : Text} {l l' : EditLine} {key : Key} {last : Option Key} {t t₁ t₂ : Terminal}

/-- The terminal with its input read up to there. -/
def readTo (t : Terminal) (input : InputStream) : Terminal :=
  { t with keyboard := { t.keyboard with input } }

/-! ## Turns -/

/-- A key that does not end the line is read and edits the line, and the row is painted if the key
asks for it. -/
structure Turn (prompt : Text) (key : Key) (l : EditLine) (t : Terminal) (l' : EditLine)
    (t' : Terminal) : Prop where
  read : Key.read t.keyboard.input = .ok (some key) t'.keyboard.input
  goesOn : Key.endsLine (some key) = false
  edited : edit key l t.keyboard.history = (l', t'.keyboard.history)
  mode : t'.keyboard.mode = t.keyboard.mode
  painted : repaints key l = true →
    Sink.print (lineFrame prompt.length l') t.screen = .ok () t'.screen
  unpainted : repaints key l = false → t'.screen = t.screen

/-- The prompt is shown on `t`, keys have made `l` of the empty line, and on `t'` the next key is
awaited. -/
inductive Typed (prompt : Text) (t : Terminal) : EditLine → Terminal → Prop
  | prompted {t₁ t₂ : Terminal} :
      enterRaw t = .ok () t₁ → display prompt t₁ = .ok () t₂ → Typed prompt t {} t₂
  | turn {key : Key} {l l' : EditLine} {t₁ t₂ : Terminal} :
      Typed prompt t l t₁ → Turn prompt key l t₁ l' t₂ → Typed prompt t l' t₂

/-- The reading goes on from the next turn. -/
theorem readKeys_of_turn (h : Turn prompt key l t l' t₁) :
    readKeys prompt l t = readKeys prompt l' t₁ := by
  obtain ⟨⟨input, mode, history⟩, screen⟩ := t₁
  obtain ⟨hr, hk, he, hm, hp, hu⟩ := h
  dsimp only at hr he hm hp hu
  subst hm
  rw [readKeys.eq_def]
  split <;> rename_i hr' <;> rw [hr] at hr' <;> cases hr'
  · cases hk
  · cases hk
  · rw [he]
    dsimp only
    split
    · rename_i hb
      rw [hp hb]
    · rename_i hb
      rw [hu (eq_false_of_ne_true hb)]

/-- Where the next key is awaited, the rest of the reading is what is still to come. -/
theorem readLine_of_typed (h : Typed prompt t l t₁) : readLine prompt t = readKeys prompt l t₁ := by
  induction h with
  | prompted he hd => simp only [readLine, he, hd]
  | turn h ht ih => rw [ih, readKeys_of_turn ht]

/-- A key that does not end the line has its turn, unless the frame it asks for is not written. -/
theorem turn_or_unpainted (prompt : Text) (l : EditLine) {input : InputStream}
    (hr : Key.read t.keyboard.input = .ok (some key) input)
    (hk : Key.endsLine (some key) = false) :
    (∃ screen, Turn prompt key l t (edit key l t.keyboard.history).1
      ⟨{ t.keyboard with input, history := (edit key l t.keyboard.history).2 }, screen⟩) ∨
      ∃ e screen, Sink.print (lineFrame prompt.length (edit key l t.keyboard.history).1) t.screen =
        .error e screen := by
  cases hb : repaints key l with
  | false => exact .inl ⟨t.screen, hr, hk, rfl, rfl, fun hp => absurd (hb.symm.trans hp) nofun,
      fun _ => rfl⟩
  | true =>
    cases hp : Sink.print (lineFrame prompt.length (edit key l t.keyboard.history).1) t.screen with
    | ok _ screen =>
      exact .inl ⟨screen, hr, hk, rfl, rfl, fun _ => hp, fun hu => absurd (hb.symm.trans hu) nofun⟩
    | error e screen => exact .inr ⟨e, screen, rfl⟩

/-! ## Endings -/

/-- `l` was typed, and then a key was read that ends the line, or the end of the input, at `t'`. -/
inductive Closes (prompt : Text) (t : Terminal) (l : EditLine) (last : Option Key) :
    Terminal → Prop
  | intro {t₁ : Terminal} {input : InputStream} : Typed prompt t l t₁ →
      Key.read t₁.keyboard.input = .ok last input → Key.endsLine last = true →
      Closes prompt t l last (t₁.readTo input)

/-- What is shown last: the finished row, or a new one when no line was submitted. -/
def lastFrame (prompt : Text) (l : EditLine) : Option Key → Text
  | some .enter => finalFrame prompt l.text
  | _ => Escape.newRow

def outcome (l : EditLine) : Option Key → ReadOutcome
  | some .enter => .line l.text
  | _ => .interrupted

/-- A line that was submitted is remembered. -/
def remember (l : EditLine) (last : Option Key) (t : Terminal) : Terminal :=
  match last with
  | some .enter =>
    { t with keyboard := { t.keyboard with history := t.keyboard.history.submit l.text } }
  | _ => t

/-- Ends the reading after the last key. -/
def close (prompt : Text) (l : EditLine) (last : Option Key) : Action ReadOutcome := do
  finish (lastFrame prompt l last)
  modify (remember l last)
  pure (outcome l last)

theorem close_apply (prompt : Text) (l : EditLine) (last : Option Key) (t : Terminal) :
    close prompt l last t = match finish (lastFrame prompt l last) t with
      | .ok _ t => .ok (outcome l last) (remember l last t)
      | .error e t => .error e t := by
  simp only [close, bind_apply, modify_apply, pure_apply]
  cases finish (lastFrame prompt l last) t <;> rfl

theorem abandon_apply {α : Type} (e : IoError) (t : Terminal) :
    (abandon e : Action α) t = .error (.io e) (final (leaveRaw t)) := by
  unfold abandon
  cases leaveRaw t <;> rfl

/-- The last frame is shown only once raw mode was left. -/
theorem close_of_stuck {e : InputError} (h : leaveRaw t = .error e t₁) :
    close prompt l last t = .error e t₁ := by
  simp only [close_apply, finish, bind_apply, h]

theorem close_of_shown {screen : Sink} (h : leaveRaw t = .ok () t₁)
    (hp : Sink.print (lastFrame prompt l last) t₁.screen = .ok () screen) :
    close prompt l last t = .ok (outcome l last) (remember l last { t₁ with screen }) := by
  simp only [close_apply, finish, bind_apply, adaptExcept_apply, display, within_apply, h, hp]

theorem close_of_unshown {e : IoError} {screen : Sink} (h : leaveRaw t = .ok () t₁)
    (hp : Sink.print (lastFrame prompt l last) t₁.screen = .error e screen) :
    close prompt l last t = .error (.io e) { t₁ with screen } := by
  simp only [close_apply, finish, bind_apply, adaptExcept_apply, display, within_apply, h, hp]

/-- Closing a line fails to leave raw mode, fails to show the last frame, or succeeds. -/
theorem close_cases (prompt : Text) (l : EditLine) (last : Option Key) (t : Terminal) :
    (∃ e t₁, leaveRaw t = .error e t₁ ∧ close prompt l last t = .error e t₁) ∨
      (∃ t₁ e screen, leaveRaw t = .ok () t₁ ∧
        Sink.print (lastFrame prompt l last) t₁.screen = .error e screen ∧
        close prompt l last t = .error (.io e) { t₁ with screen }) ∨
      ∃ t₁ screen, leaveRaw t = .ok () t₁ ∧
        Sink.print (lastFrame prompt l last) t₁.screen = .ok () screen ∧
        close prompt l last t = .ok (outcome l last) (remember l last { t₁ with screen }) := by
  cases hl : leaveRaw t with
  | error e t₁ => exact .inl ⟨e, t₁, rfl, close_of_stuck hl⟩
  | ok _ t₁ =>
    cases hp : Sink.print (lastFrame prompt l last) t₁.screen with
    | error e screen => exact .inr (.inl ⟨t₁, e, screen, rfl, hp, close_of_unshown hl hp⟩)
    | ok _ screen => exact .inr (.inr ⟨t₁, screen, rfl, hp, close_of_shown hl hp⟩)

theorem readKeys_of_error {e : IoError} {input : InputStream}
    (hr : Key.read t.keyboard.input = .error e input) :
    readKeys prompt l t = abandon e (t.readTo input) := by
  rw [readKeys.eq_def]
  split <;> rename_i hr' <;> rw [hr] at hr' <;> cases hr'
  rfl

theorem readKeys_of_unpainted {input : InputStream} {history : HistoryRing} {e : IoError}
    {screen : Sink} (hr : Key.read t.keyboard.input = .ok (some key) input)
    (hk : Key.endsLine (some key) = false) (he : edit key l t.keyboard.history = (l', history))
    (hb : repaints key l = true)
    (hp : Sink.print (lineFrame prompt.length l') t.screen = .error e screen) :
    readKeys prompt l t = abandon e ⟨{ t.keyboard with input, history }, screen⟩ := by
  rw [readKeys.eq_def]
  split <;> rename_i hr' <;> rw [hr] at hr' <;> cases hr'
  · cases hk
  · cases hk
  · simp only [he, hb, hp, if_true]

theorem readKeys_of_last {input : InputStream} (hr : Key.read t.keyboard.input = .ok last input)
    (hl : Key.endsLine last = true) :
    readKeys prompt l t = close prompt l last (t.readTo input) := by
  rw [readKeys.eq_def]
  split <;> rename_i hr' <;> rw [hr] at hr' <;> cases hr'
  · rfl
  · rfl
  · rw [close_apply]
    have hf : finish (lastFrame prompt l (some .enter)) (t.readTo input) =
        finish (finalFrame prompt l.text) { t with keyboard := { t.keyboard with input } } := rfl
    rw [hf]
    cases finish (finalFrame prompt l.text) { t with keyboard := { t.keyboard with input } } <;> rfl
  · rename_i hi he
    rw [Key.endsLine_eq_false he hi] at hl
    cases hl

/-- Once the last key is read, only the end of the reading is still to come. -/
theorem readLine_of_closes (h : Closes prompt t l last t₁) :
    readLine prompt t = close prompt l last t₁ := by
  obtain ⟨h, hr, hl⟩ := h
  rw [readLine_of_typed h, readKeys_of_last hr hl]

/-- The ways in which the reading of a line ends, each with its result: raw mode is not entered, the
prompt is not shown, no key can be read, the row cannot be painted, or the line is closed. -/
inductive Ending (prompt : Text) (t : Terminal) :
    EStateM.Result InputError Terminal ReadOutcome → Prop
  | refused {e : InputError} {t₁ : Terminal} :
      enterRaw t = .error e t₁ → Ending prompt t (.error e t₁)
  | unprompted {e : IoError} {t₁ t₂ : Terminal} :
      enterRaw t = .ok () t₁ → display prompt t₁ = .error e t₂ → Ending prompt t (abandon e t₂)
  | unread {l : EditLine} {t₁ : Terminal} {e : IoError} {input : InputStream} :
      Typed prompt t l t₁ → Key.read t₁.keyboard.input = .error e input →
      Ending prompt t (abandon e (t₁.readTo input))
  | unpainted {l : EditLine} {t₁ : Terminal} {key : Key} {keyboard : Keyboard} {e : IoError}
      {frame : Text} {screen : Sink} :
      Typed prompt t l t₁ → keyboard.mode = t₁.keyboard.mode →
      keyboard.history = (edit key l t₁.keyboard.history).2 →
      Sink.print frame t₁.screen = .error e screen → Ending prompt t (abandon e ⟨keyboard, screen⟩)
  | closed {l : EditLine} {last : Option Key} {t₁ : Terminal} :
      Closes prompt t l last t₁ → Ending prompt t (close prompt l last t₁)

theorem readKeys_ending (h : Typed prompt t l t₁) : Ending prompt t (readKeys prompt l t₁) := by
  induction l, t₁ using readKeys.induct prompt with
  | case1 l t₁ e input hr =>
    rw [readKeys_of_error hr]
    exact .unread h hr
  | case2 l t₁ input hr | case3 l t₁ input hr | case4 l t₁ input hr | case5 l t₁ input hr =>
    rw [readKeys_of_last hr rfl]
    exact .closed (.intro h hr rfl)
  | case6 l t₁ key input hi hn hr l' history he hb e screen hp =>
    rw [readKeys_of_unpainted hr (Key.endsLine_eq_false hn hi) he hb hp]
    exact .unpainted h rfl (congrArg Prod.snd he).symm hp
  | case7 l t₁ key input hi hn hr l' history he keyboard hb _ screen hp ih =>
    have ht : Turn prompt key l t₁ l' ⟨keyboard, screen⟩ :=
      ⟨hr, Key.endsLine_eq_false hn hi, he, rfl, fun _ => hp, fun hu => absurd hb (by simp [hu])⟩
    rw [readKeys_of_turn ht]
    exact ih (h.turn ht)
  | case8 l t₁ key input hi hn hr l' history he keyboard hb ih =>
    have ht : Turn prompt key l t₁ l' ⟨keyboard, t₁.screen⟩ :=
      ⟨hr, Key.endsLine_eq_false hn hi, he, rfl, fun hp => absurd hp hb, fun _ => rfl⟩
    rw [readKeys_of_turn ht]
    exact ih (h.turn ht)

theorem readLine_ending (prompt : Text) (t : Terminal) :
    Ending prompt t (readLine prompt t) := by
  unfold readLine
  cases he : enterRaw t with
  | error e t₁ => exact .refused he
  | ok _ t₁ =>
    dsimp only
    cases hd : display prompt t₁ with
    | error e t₂ => exact .unprompted he hd
    | ok _ t₂ => exact readKeys_ending (.prompted he hd)

end Terminal
end LineRepl
