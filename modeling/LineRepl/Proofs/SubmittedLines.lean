import LineRepl.Proofs.LineEditor
import LineRepl.Proofs.RawMode
import LineRepl.Proofs.TerminalRow

/-! Lines that are typed out. A stream that yields the bytes of some keys and then that of return
submits the line which these keys make of the empty one, and what it has to say after them is not
looked at. This fails only if something cannot be shown or the mode cannot be switched; and however it
succeeds, the keyboard that it leaves is the same. -/
namespace LineRepl

open Attempt

/-! ## Bytes and keys -/

namespace InputStream

/-- The next bytes that a stream delivers, and what is left of it then. -/
inductive Yields : InputStream → Bytes → InputStream → Prop
  | nil (s : InputStream) : Yields s [] s
  | cons {s s₁ s' : InputStream} {b : UInt8} {bytes : Bytes} :
      nextByte s = .ok (some b) s₁ → Yields s₁ bytes s' → Yields s (b :: bytes) s'

end InputStream

namespace Key

variable {s s' : InputStream}

/-- The next keys that are read from a stream, and what is left of it then. -/
inductive Reads : InputStream → List Key → InputStream → Prop
  | nil (s : InputStream) : Reads s [] s
  | cons {s s₁ s' : InputStream} {key : Key} {keys : List Key} :
      read s = .ok (some key) s₁ → Reads s₁ keys s' → Reads s (key :: keys) s'

theorem read_byte {b : UInt8} (h : InputStream.nextByte s = .ok (some b) s') (hb : b ≠ escape) :
    read s = .ok (some (ofByte b)) s' := by
  simp only [read, readVia, bind_apply, h, if_neg hb, pure_apply]

theorem ofByte_of_le {b : UInt8} (h : 0x20 ≤ b ∧ b ≤ 0x7E) :
    ofByte b = .char (Char.ofNat b.toNat) ∧ b ≠ escape := by
  have ne {d : UInt8} (hd : ¬ (0x20 ≤ d ∧ d ≤ 0x7E)) : b ≠ d := fun e => hd (e ▸ h)
  refine ⟨?_, ne (by decide)⟩
  rw [ofByte, if_neg (not_or.mpr ⟨ne (by decide), ne (by decide)⟩), if_neg (ne (by decide)),
    if_neg (ne (by decide)), if_pos h]

/-- A printable character is one byte, and that byte is its key. -/
theorem ofByte_printable {c : Char} (h : isPrintable c = true) :
    String.utf8EncodeChar c = [UInt8.ofNat c.toNat] ∧
      ofByte (UInt8.ofNat c.toNat) = .char c ∧ UInt8.ofNat c.toNat ≠ escape := by
  obtain ⟨hl, hu⟩ := (isPrintable_iff c).mp h
  have hn : c.toNat < 128 := Nat.lt_of_le_of_lt hu (by decide)
  obtain ⟨hk, hb⟩ := ofByte_of_le (b := UInt8.ofNat c.toNat)
    ⟨TerminalRow.ofNat_le (by decide) hn hl, TerminalRow.ofNat_le hn (by decide) hu⟩
  rw [TerminalRow.toNat_ofNat_of_lt hn, Char.ofNat_toNat] at hk
  exact ⟨TerminalRow.utf8_of_lt hn, hk, hb⟩

/-- A printable line is typed out by its characters. -/
theorem reads_text {text : Text} (ht : text.Printable) {bytes : Bytes}
    (h : s.Yields (text.utf8 ++ bytes) s') :
    ∃ s₁, Reads s (text.map .char) s₁ ∧ s₁.Yields bytes s' := by
  induction text generalizing s with
  | nil => exact ⟨s, .nil s, h⟩
  | cons c text ih =>
    obtain ⟨hu, hk, hb⟩ := ofByte_printable (ht c List.mem_cons_self)
    rw [Text.utf8_cons, hu] at h
    obtain _ | ⟨hn, hy⟩ := h
    obtain ⟨s₁, hr, hs⟩ := ih (fun d hd => ht d (List.mem_cons_of_mem c hd)) hy
    exact ⟨s₁, .cons (hk ▸ read_byte hn hb) hr, hs⟩

theorem read_enter (h : s.Yields [0x0D] s') : read s = .ok (some .enter) s' := by
  obtain _ | ⟨hn, ⟨⟩⟩ := h
  exact read_byte hn (by decide)

theorem read_arrow {first second : UInt8} {key : Key} (ha : arrow? first second = some key)
    {bytes : Bytes} (h : s.Yields (escape :: first :: second :: bytes) s') :
    ∃ s₁, read s = .ok (some key) s₁ ∧ s₁.Yields bytes s' := by
  obtain _ | ⟨h₁, _ | ⟨h₂, _ | ⟨h₃, hy⟩⟩⟩ := h
  refine ⟨_, ?_, hy⟩
  simp only [read, readVia, readEscape, bind_apply, h₁, if_true, map_apply, h₂, h₃, ha, pure_apply]

end Key

/-! ## Switches -/

namespace ModeSwitch

/-- The switch after these calls. -/
def after (calls : List ModeEvent) (m : ModeSwitch) : ModeSwitch :=
  { m with events := m.events ++ calls }

theorem after_after (first second : List ModeEvent) (m : ModeSwitch) :
    (m.after first).after second = m.after (first ++ second) := by
  simp only [after, List.append_assoc]

theorem Unfailing.after {m : ModeSwitch} (h : m.Unfailing) (calls : List ModeEvent) :
    (m.after calls).Unfailing := ⟨h.enter, h.leave⟩

theorem enterRaw_after (m : ModeSwitch) :
    Ends enterRaw m (fun _ m' => m' = m.after [.raw]) fun _ _ => ¬ m.Unfailing := by
  unfold Ends enterRaw
  cases hf : m.enterFaults _ with
  | none => rfl
  | some e => exact fun h => nomatch hf.symm.trans (h.enter _)

theorem leaveRaw_after (m : ModeSwitch) :
    Ends leaveRaw m (fun _ m' => m' = m.after [.cooked]) fun _ _ => ¬ m.Unfailing := by
  unfold Ends leaveRaw
  cases hf : m.leaveFaults _ with
  | none => rfl
  | some e => exact fun h => nomatch hf.symm.trans (h.leave _)

end ModeSwitch

namespace Terminal

variable {prompt : Text} {t t₁ : Terminal} {l : EditLine} {keys : List Key} {input rest : InputStream}

/-- What is shown is taken, and the mode is switched when it should be. -/
structure Unfailing (t : Terminal) : Prop where
  mode : t.keyboard.mode.Unfailing
  screen : t.screen.Unfailing

/-- The mode is switched by this call, or not every switch of it succeeds. -/
theorem switch_after {act : EStateM IoError ModeSwitch Unit} {call : ModeEvent} {t : Terminal}
    (h : Ends act t.keyboard.mode (fun _ m => m = t.keyboard.mode.after [call])
      fun _ _ => ¬ t.keyboard.mode.Unfailing) :
    Ends (switch act) t (fun _ t' => t' = t.atMode (t.keyboard.mode.after [call]))
      fun _ _ => ¬ t.Unfailing := by
  refine (switch_ends h).mono ?_ ?_
  · rintro _ _ ⟨mode, rfl, rfl⟩
    rfl
  · rintro _ _ ⟨io, -, mode, hm, -⟩
    exact fun ht => hm ht.mode

theorem enterRaw_after (t : Terminal) :
    Ends enterRaw t (fun _ t' => t' = t.atMode (t.keyboard.mode.after [.raw]))
      fun _ _ => ¬ t.Unfailing :=
  switch_after (ModeSwitch.enterRaw_after _)

theorem leaveRaw_after (t : Terminal) :
    Ends leaveRaw t (fun _ t' => t' = t.atMode (t.keyboard.mode.after [.cooked]))
      fun _ _ => ¬ t.Unfailing :=
  switch_after (ModeSwitch.leaveRaw_after _)

/-! ## Submitting -/

/-- What keys make of a line and of what can be recalled. -/
def afterKeys (keys : List Key) (l : EditLine) (h : HistoryRing) : EditLine × HistoryRing :=
  keys.foldl (fun x key => edit key x.1 x.2) (l, h)

theorem afterKeys_text (before text : Text) (h : HistoryRing) :
    afterKeys (text.map .char) (.ofText before) h = (.ofText (before ++ text), h) := by
  induction text generalizing before with
  | nil => rw [List.append_nil]; rfl
  | cons c text ih =>
    have hi : (EditLine.ofText before).insert c = .ofText (before ++ [c]) := by
      simp [EditLine.insert, EditLine.ofText]
    have := ih (before ++ [c])
    rw [← hi, List.append_assoc] at this
    exact this

/-- `x` was submitted on `t` with these calls of the mode, and `rest` is still to be read. -/
structure Submits (t : Terminal) (x : EditLine × HistoryRing) (calls : List ModeEvent)
    (rest : InputStream) (o : ReadOutcome) (t' : Terminal) : Prop where
  outcome : o = .line x.1.text
  keyboard : t'.keyboard = ⟨rest, t.keyboard.mode.after calls, x.2.submit x.1.text⟩
  screen : t.screen.Unfailing → t'.screen.Unfailing

theorem not_unfailing_of_print {text : Text} {e : IoError} {screen : Sink}
    (h : Sink.print text t.screen = .error e screen) : ¬ t.Unfailing :=
  fun ht => ht.screen.print_ne_error h

/-- A key that does not end the line has its turn, or its frame cannot be shown. -/
theorem turn_or_error (prompt : Text) (l : EditLine) {key : Key}
    (hr : Key.read t.keyboard.input = .ok (some key) input)
    (hk : Key.endsLine (some key) = false) :
    (∃ l' t₁, Turn prompt key l t l' t₁) ∨
      ∃ e t₁, readKeys prompt l t = .error e t₁ ∧ ¬ t.Unfailing := by
  obtain ⟨screen, ht⟩ | ⟨e, screen, hp⟩ := turn_or_unpainted prompt l hr hk
  · exact .inl ⟨_, _, ht⟩
  · cases hb : repaints key l with
    | true =>
      have h := readKeys_of_unpainted hr hk rfl hb hp
      rw [abandon_apply] at h
      exact .inr ⟨_, _, h, not_unfailing_of_print hp⟩
    | false =>
      refine .inl ⟨_, ⟨{ t.keyboard with input, history := _ }, t.screen⟩, hr, hk, rfl, rfl, ?_, ?_⟩
      · exact fun hp => absurd (hb.symm.trans hp) nofun
      · exact fun _ => rfl

theorem Submits.of_turn {key : Key} {l' : EditLine} {calls : List ModeEvent} {o : ReadOutcome}
    {t' : Terminal} (ht : Turn prompt key l t l' t₁)
    (h : Submits t₁ (afterKeys keys l' t₁.keyboard.history) calls rest o t') :
    Submits t (afterKeys (key :: keys) l t.keyboard.history) calls rest o t' := by
  have he : afterKeys (key :: keys) l t.keyboard.history = afterKeys keys l' t₁.keyboard.history := by
    rw [afterKeys, List.foldl_cons, ht.edited]
    rfl
  rw [he]
  exact ⟨h.outcome, ht.mode ▸ h.keyboard, fun hs => h.screen (ht.unfailing hs)⟩

/-- Return alone closes the line. -/
theorem close_submits (prompt : Text) (l : EditLine) (t : Terminal) :
    Ends (close prompt l (some .enter)) t
      (Submits t (l, t.keyboard.history) [.cooked] t.keyboard.input) fun _ _ => ¬ t.Unfailing := by
  have hl := leaveRaw_after t
  unfold Ends
  obtain ⟨e, t₁, h, hc⟩ | ⟨t₁, e, screen, h, hp, hc⟩ | ⟨t₁, screen, h, hp, hc⟩ :=
    close_cases prompt l (some .enter) t
  · rw [hc]
    exact hl.error_of h
  · obtain rfl := hl.ok_of h
    rw [hc]
    exact not_unfailing_of_print hp
  · obtain rfl := hl.ok_of h
    rw [hc]
    exact ⟨rfl, rfl, fun hs => hs.of_print hp⟩

/-- Keys and return, from where the next key is awaited. -/
theorem readKeys_submits (prompt : Text) (l : EditLine) (hk : Key.Reads t.keyboard.input keys input)
    (hg : ∀ key ∈ keys, Key.endsLine (some key) = false)
    (he : Key.read input = .ok (some .enter) rest) :
    Ends (readKeys prompt l) t (Submits t (afterKeys keys l t.keyboard.history) [.cooked] rest)
      fun _ _ => ¬ t.Unfailing := by
  unfold Ends
  induction keys generalizing l t with
  | nil =>
    cases hk
    rw [readKeys_of_last he rfl]
    refine Ends.mono (close_submits prompt l (t.readTo rest)) ?_ ?_
    · exact fun o t' hs => ⟨hs.outcome, hs.keyboard, hs.screen⟩
    · exact fun e t' hn ht => hn ⟨ht.mode, ht.screen⟩
  | cons key keys ih =>
    obtain _ | ⟨hr, hk⟩ := hk
    obtain ⟨l', t₁, ht⟩ | ⟨e, t₁, h, hn⟩ := turn_or_error prompt l hr (hg key List.mem_cons_self)
    · -- the turn has read the same key, and its screen fails only if the one before it may
      cases hr.symm.trans ht.read
      rw [readKeys_of_turn ht]
      refine Ends.mono (ih l' hk fun key h => hg key (List.mem_cons_of_mem _ h)) ?_ ?_
      · exact fun o t' hs => hs.of_turn ht
      · exact fun e t' hn hu => hn ⟨ht.mode.symm ▸ hu.mode, ht.unfailing hu.screen⟩
    · rw [h]
      exact hn

theorem display_cases (text : Text) (t : Terminal) :
    (∃ screen, Sink.print text t.screen = .ok () screen ∧
      display text t = .ok () { t with screen }) ∨
      ∃ e screen, Sink.print text t.screen = .error e screen ∧
        display text t = .error e { t with screen } := by
  rw [display, within_apply]
  cases Sink.print text t.screen with
  | ok _ screen => exact .inl ⟨screen, rfl, rfl⟩
  | error e screen => exact .inr ⟨e, screen, rfl, rfl⟩

/-- Keys and return, from the prompt on. -/
theorem readLine_submits (prompt : Text) (hk : Key.Reads t.keyboard.input keys input)
    (hg : ∀ key ∈ keys, Key.endsLine (some key) = false)
    (he : Key.read input = .ok (some .enter) rest) :
    Ends (readLine prompt) t (Submits t (afterKeys keys {} t.keyboard.history) [.raw, .cooked] rest)
      fun _ _ => ¬ t.Unfailing := by
  have hs := enterRaw_after t
  unfold Ends readLine
  cases h : enterRaw t with
  | error e t₁ => exact hs.error_of h
  | ok _ t₁ =>
    obtain rfl := hs.ok_of h
    dsimp only
    obtain ⟨screen, hp, hd⟩ | ⟨e, screen, hp, hd⟩ :=
      display_cases prompt (t.atMode (t.keyboard.mode.after [.raw]))
    · rw [hd]
      refine Ends.mono (readKeys_submits prompt {} hk hg he) ?_ ?_
      · intro o t' hs
        refine ⟨hs.outcome, ?_, fun h => hs.screen (h.of_print hp)⟩
        have hm : (t.keyboard.mode.after [.raw]).after [.cooked] = _ :=
          ModeSwitch.after_after [.raw] [.cooked] t.keyboard.mode
        exact hs.keyboard.trans (congrArg (Keyboard.mk rest · _) hm)
      · exact fun e t' hn hu => hn ⟨hu.mode.after _, hu.screen.of_print hp⟩
    · rw [hd]
      dsimp only
      rw [abandon_apply]
      exact not_unfailing_of_print hp

/-- A line that is typed out. -/
theorem readLine_types (prompt : Text) {text : Text} (ht : text.Printable)
    (hy : t.keyboard.input.Yields (text.utf8 ++ [0x0D]) rest) :
    Ends (readLine prompt) t
      (Submits t (.ofText text, t.keyboard.history) [.raw, .cooked] rest)
      fun _ _ => ¬ t.Unfailing := by
  obtain ⟨input, hk, hi⟩ := Key.reads_text ht hy
  have hg : ∀ key ∈ text.map Key.char, Key.endsLine (some key) = false := by
    intro key h
    obtain ⟨c, -, rfl⟩ := List.mem_map.mp h
    rfl
  have he : afterKeys (text.map .char) {} t.keyboard.history = (.ofText text, t.keyboard.history) :=
    afterKeys_text [] text t.keyboard.history
  rw [← he]
  exact readLine_submits prompt hk hg (Key.read_enter hi)

/-- The line that is recalled first. -/
theorem readLine_recalls (prompt : Text)
    (hy : t.keyboard.input.Yields [0x1B, 0x5B, 0x41, 0x0D] rest) :
    Ends (readLine prompt) t
      (Submits t (.ofText t.keyboard.history.recallPrevious.1, t.keyboard.history.recallPrevious.2)
        [.raw, .cooked] rest)
      fun _ _ => ¬ t.Unfailing := by
  have ha : Key.arrow? 0x5B 0x41 = some .up := rfl
  obtain ⟨input, hk, hi⟩ := Key.read_arrow ha hy
  exact readLine_submits prompt (.cons hk (.nil input)) (by simp [Key.endsLine]) (Key.read_enter hi)

end Terminal
end LineRepl
