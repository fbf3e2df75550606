import LineRepl.Proofs.LineEditor
import LineRepl.Proofs.RawMode
import LineRepl.Proofs.TerminalRow

/-! What stands in the row while a line is typed. Each frame is painted over what stands there, and
not every key paints one; yet whenever a key is awaited the row reads the prompt and the line, and the
column is that of the editing cursor. This asks for a prompt and remembered lines of printable
characters, and for a prompt and a line that are no longer than a move can be wide. -/
namespace LineRepl

open Attempt

/-! ## Frames -/

namespace TerminalRow

variable {prompt text : Text} (column : Nat)

/-- The row of a prompt with a line after it. A move to the cursor of the line is bounded in width. -/
def ofLine (prompt : Text) (l : EditLine) : TerminalRow :=
  { cells := prompt ++ l.text, column := prompt.length + min l.cursor Escape.countLimit }

theorem paint_prompt (hp : prompt.Printable) :
    paint {} prompt.utf8 = some (ofLine prompt {}) := by
  have h := paint_text [] hp [] []
  simpa only [ofLine, List.nil_append, List.drop_nil, List.append_nil, List.length_nil,
    Nat.zero_min, Nat.add_zero] using h

/-- The frame of a line replaces whatever stands after the prompt. -/
theorem paint_lineFrame (hn : prompt.length ≤ Escape.countLimit) {l : EditLine}
    (hl : l.text.Printable) (old : Text) :
    paint { cells := prompt ++ old, column } (Text.utf8 (Terminal.lineFrame prompt.length l)) =
      some (ofLine prompt l) := by
  have ht := paint_text [] hl prompt []
  rw [List.append_nil, List.drop_nil, List.append_nil] at ht
  simp only [Terminal.lineFrame, List.append_assoc, Text.utf8_append]
  rw [paint_append_of (paint_firstColumn _ _ _), paint_append_of (paint_forward _ _ _ _),
    Nat.zero_add, Nat.min_eq_left hn, paint_append_of (paint_clearRest _ _ _), List.take_left,
    paint_append_of ht, paint_append_of (paint_firstColumn _ _ _),
    paint_append_of (paint_forward _ _ _ _), Nat.zero_add, Nat.min_eq_left hn, paint_forward]
  rfl

/-- The last frame overwrites the whole row and leaves it. -/
theorem paint_finalFrame (hp : prompt.Printable) (ht : text.Printable) (cells : Text) :
    paint { cells, column } (Text.utf8 (Terminal.finalFrame prompt text)) =
      some { finished := [prompt ++ text] } := by
  have hpt : Text.Printable (prompt ++ text) := by
    intro c hc
    rcases List.mem_append.mp hc with hc | hc
    · exact hp c hc
    · exact ht c hc
  have hf : Terminal.finalFrame prompt text =
      Escape.firstColumn ++ ((prompt ++ text) ++ (Escape.clearRest ++ Escape.newRow)) := by
    simp only [Terminal.finalFrame, List.append_assoc]
  have h := paint_text [] hpt [] cells
  rw [List.nil_append, List.nil_append, List.length_nil] at h
  rw [hf, Text.utf8_append, paint_append_of (paint_firstColumn _ _ _), Text.utf8_append,
    paint_append_of h, Text.utf8_append, paint_append_of (paint_clearRest _ _ _), List.take_left,
    paint_newRow]
  rfl

end TerminalRow

/-! ## Printable lines -/

namespace Key

theorem printable_of_ofByte {b : UInt8} {c : Char} (h : ofByte b = .char c) :
    isPrintable c = true := by
  unfold ofByte at h
  split at h
  · cases h
  split at h
  · cases h
  split at h
  · cases h
  split at h
  · rename_i hb
    cases h
    rw [UInt8.le_iff_toNat_le, UInt8.le_iff_toNat_le] at hb
    have hv : b.toNat.isValidChar := .inl (Nat.lt_of_le_of_lt hb.2 (by decide))
    rw [isPrintable_iff, Char.ofNat, dif_pos hv]
    exact hb
  · cases h

theorem readThird_ne_char (first second : UInt8) (s : InputStream) :
    Ends (readThird pushBack first second) s (fun key _ => ∀ c, key ≠ .char c) fun _ _ => True := by
  refine Ends.bind .any (fun third? s _ => ?_) fun _ _ _ => trivial
  rcases third? with _ | third
  · exact nofun
  · dsimp only
    split
    · exact nofun
    · exact nofun

theorem arrow?_ne_char {first second : UInt8} {key : Key} (h : arrow? first second = some key)
    (c : Char) : key ≠ .char c := by
  unfold arrow? at h
  rintro rfl
  split at h
  · repeat
      split at h
      · cases h
    cases h
  · cases h

theorem readEscape_ne_char (s : InputStream) :
    Ends (readEscape pushBack) s (fun key _ => ∀ c, key ≠ .char c) fun _ _ => True := by
  refine Ends.bind .any (fun first? s _ => ?_) fun _ _ _ => trivial
  refine Ends.bind .any (fun second? s _ => ?_) fun _ _ _ => trivial
  rcases first? with _ | first
  · exact nofun
  rcases second? with _ | second
  · exact nofun
  dsimp only
  cases ha : arrow? first second with
  | some key => exact arrow?_ne_char ha
  | none => exact readThird_ne_char first second s

/-- Only a single byte is read as a character, and as a printable one. -/
theorem read_printable (s : InputStream) :
    Ends Key.read s (fun key _ => ∀ c, key = some (.char c) → isPrintable c = true)
      fun _ _ => True := by
  refine Ends.bind .any (fun b? s _ => ?_) fun _ _ _ => trivial
  rcases b? with _ | b
  · exact nofun
  dsimp only
  split
  · refine Ends.map (readEscape_ne_char s) fun key _ hk c hc => ?_
    exact absurd (Option.some.inj hc) (hk c)
  · intro c hc
    exact printable_of_ofByte (Option.some.inj hc)

end Key

namespace HistoryRing

/-- Every line that is remembered is printable. -/
def Printable (r : HistoryRing) : Prop := ∀ line ∈ r.slots, Text.Printable line

instance (r : HistoryRing) : Decidable r.Printable :=
  inferInstanceAs (Decidable (∀ line ∈ r.slots, Text.Printable line))

theorem SameLines.printable {r r' : HistoryRing} (h : r.SameLines r') (hr : r.Printable) :
    r'.Printable := by
  unfold Printable
  rw [h.1]
  exact hr

variable {r : HistoryRing}

theorem Printable.recalled (hr : r.Printable) : r.recalled.Printable :=
  hr _ (Array.getElem_mem _)

theorem Printable.recallNext (hr : r.Printable) : r.recallNext.1.Printable := by
  unfold HistoryRing.recallNext
  split
  · exact nofun
  · exact Printable.recalled (r := r.moveForward) hr

theorem Printable.recallPrevious (hr : r.Printable) : r.recallPrevious.1.Printable := by
  unfold HistoryRing.recallPrevious
  split
  · exact hr.recallNext
  · exact hr.recalled

end HistoryRing

namespace SplitLine

theorem mem_text {c : Char} {s : SplitLine} : c ∈ s.text ↔ c ∈ s.before ∨ c ∈ s.after := by
  rw [text, List.mem_append, List.mem_reverse]

theorem text_moveLeft (s : SplitLine) : s.moveLeft.text = s.text := by
  match s with
  | ⟨[], after⟩ => rfl
  | ⟨c :: before, after⟩ => simp [moveLeft, text]

theorem text_moveRight (s : SplitLine) : s.moveRight.text = s.text := by
  match s with
  | ⟨before, []⟩ => rfl
  | ⟨before, c :: after⟩ => simp [moveRight, text]

/-- A key leaves a line printable if the character it puts in, or the line it recalls, is. -/
theorem press_printable {key : Key} {s : SplitLine} {r : HistoryRing}
    (hk : ∀ c, key = .char c → isPrintable c = true) (hr : r.Printable) (hs : s.text.Printable) :
    (s.press key r).1.text.Printable := by
  have sub {s' : SplitLine} (hb : s'.before ⊆ s.before) (ha : s'.after ⊆ s.after) :
      s'.text.Printable := by
    intro c hc
    exact hs c (mem_text.mpr ((mem_text.mp hc).imp (@hb c) (@ha c)))
  cases key with
  | char c =>
    intro d hd
    rcases mem_text.mp hd with hd | hd
    · rcases List.mem_cons.mp hd with rfl | hd
      · exact hk d rfl
      · exact hs d (mem_text.mpr (.inl hd))
    · exact hs d (mem_text.mpr (.inr hd))
  | backspace =>
    obtain ⟨_ | ⟨c, before⟩, after⟩ := s
    · exact sub (List.Subset.refl _) fun _ => List.mem_of_mem_tail
    · exact sub (List.subset_cons_self c before) (List.Subset.refl _)
  | deleteForward => exact sub (List.Subset.refl _) fun _ => List.mem_of_mem_tail
  | left => exact (text_moveLeft s).symm ▸ hs
  | right => exact (text_moveRight s).symm ▸ hs
  | up =>
    intro c hc
    rcases mem_text.mp hc with hc | hc
    · exact hr.recallPrevious c (List.mem_reverse.mp hc)
    · cases hc
  | down =>
    intro c hc
    rcases mem_text.mp hc with hc | hc
    · exact hr.recallNext c (List.mem_reverse.mp hc)
    · cases hc
  | enter | interrupt | other => exact hs

/-- The cursor of a line stands in it or at its end. -/
theorem cursor_toLine_le (s : SplitLine) : s.toLine.cursor ≤ s.toLine.text.length := by
  show s.before.length ≤ (s.before.reverse ++ s.after).length
  rw [List.length_append, List.length_reverse]
  exact Nat.le_add_right _ _

end SplitLine

/-! ## Typing -/

theorem Sink.written_of_print {text : Text} {s s' : Sink} (h : print text s = .ok () s') :
    s'.written = s.written ++ text.utf8 := by
  unfold print put at h
  split at h
  · cases h
  split at h
  · rename_i hf
    cases h
    have hb : fitting text.utf8 s = text.utf8 := by
      unfold fitting at hf ⊢
      split at hf
      · rfl
      · rw [List.length_take] at hf
        exact List.take_of_length_le (by omega)
    show s.written ++ fitting text.utf8 s = _
    rw [hb]
  · cases h

namespace Terminal

variable {prompt : Text} {l l' : EditLine} {key : Key} {t t₁ t₂ : Terminal}

/-- What was written between `t` and `t'` paints this row on an empty one. -/
def Paints (t t' : Terminal) (r : TerminalRow) : Prop :=
  ∃ bytes : Bytes, t'.screen.written = t.screen.written ++ bytes ∧
    TerminalRow.paint {} bytes = some r

theorem Paints.nothing (t : Terminal) : Paints t t {} :=
  ⟨[], Array.appendList_nil.symm, rfl⟩

theorem Paints.print {text : Text} {r r' : TerminalRow} (h : Paints t t₁ r)
    (hp : Sink.print text t₁.screen = .ok () t₂.screen) (hr : r.paint text.utf8 = some r') :
    Paints t t₂ r' := by
  obtain ⟨bytes, hw, hb⟩ := h
  refine ⟨bytes ++ text.utf8, ?_, ?_⟩
  · rw [Sink.written_of_print hp, hw]
    apply Array.ext'
    simp only [Array.toList_appendList, List.append_assoc]
  · rw [TerminalRow.paint_append_of hb, hr]

theorem Paints.of_screen {r : TerminalRow} (h : Paints t t₁ r) (hs : t₂.screen = t₁.screen) :
    Paints t t₂ r := by
  unfold Paints
  rw [hs]
  exact h

theorem screen_of_enterRaw (h : enterRaw t = .ok () t₁) : t₁.screen = t.screen := by
  obtain ⟨-, mode, rfl⟩ := (enterRaw_switches t).ok_of h
  rfl

theorem screen_of_leaveRaw (h : leaveRaw t = .ok () t₁) : t₁.screen = t.screen := by
  obtain ⟨-, mode, rfl⟩ := (leaveRaw_switches t).ok_of h
  rfl

theorem print_of_display {text : Text} (h : display text t = .ok () t₁) :
    Sink.print text t.screen = .ok () t₁.screen := by
  obtain ⟨screen, hp, rfl⟩ := ok_of_within h
  exact hp

/-- A key that paints no frame changes nothing that a frame shows. -/
theorem edit_of_not_repaints (h : repaints key l = false) (r : HistoryRing) :
    edit key l r = (l, r) := by
  cases key with
  | backspace =>
    have he : l.text.isEmpty = true := by
      simpa only [repaints, EditLine.canBackspace, Bool.not_eq_false'] using h
    show (l.backspace, r) = _
    rw [EditLine.backspace, if_pos he]
  | deleteForward =>
    have he : ¬ l.cursor < l.text.length := of_decide_eq_false h
    show (l.deleteForward, r) = _
    rw [EditLine.deleteForward, if_neg he]
  | enter | interrupt | other => rfl
  | char | left | right | up | down => cases h

/-- The cursor of a line that is typed stands in it, and all of its characters are printable. -/
theorem Typed.split (hr : t.keyboard.history.Printable) (h : Typed prompt t l t₁) :
    ∃ s : SplitLine, l = s.toLine ∧ s.text.Printable := by
  induction h with
  | prompted => exact ⟨{}, rfl, nofun⟩
  | @turn key l l' t₁ t₂ h ht ih =>
    obtain ⟨s, rfl, hs⟩ := ih
    have he := ht.edited
    rw [SplitLine.edit_toLine] at he
    obtain ⟨rfl, -⟩ := Prod.mk.inj he
    refine ⟨_, rfl, SplitLine.press_printable ?_ (h.held.lines.printable hr) hs⟩
    rintro c rfl
    exact (Key.read_printable _).ok_of ht.read c rfl

/-- Whenever a key is awaited, the row shows the line. -/
theorem Typed.paints (hp : prompt.Printable) (hn : prompt.length ≤ Escape.countLimit)
    (hr : t.keyboard.history.Printable) (h : Typed prompt t l t₁) :
    Paints t t₁ (TerminalRow.ofLine prompt l) := by
  induction h with
  | @prompted t₁ t₂ he hd =>
    have hi : Paints t t₁ {} := (Paints.nothing t).of_screen (screen_of_enterRaw he)
    exact hi.print (print_of_display hd) (TerminalRow.paint_prompt hp)
  | @turn key l l' t₁ t₂ h ht ih =>
    obtain ⟨s, hl, hs⟩ := (h.turn ht).split hr
    cases hb : repaints key l with
    | true =>
      refine ih.print (ht.painted hb) (TerminalRow.paint_lineFrame _ hn ?_ _)
      rw [hl]
      exact hs
    | false =>
      -- No frame, but no change either: the row still shows the line as it was.
      have he := ht.edited
      rw [edit_of_not_repaints hb] at he
      obtain ⟨rfl, -⟩ := Prod.mk.inj he
      exact ih.of_screen (ht.unpainted hb)

/-- When the last frame of a submitted line was written, its row is finished. -/
theorem Closes.paints_finished {t₃ : Terminal} (hp : prompt.Printable)
    (hn : prompt.length ≤ Escape.countLimit) (hr : t.keyboard.history.Printable)
    (h : Closes prompt t l (some .enter) t₁) (hl : leaveRaw t₁ = .ok () t₂)
    (hf : Sink.print (finalFrame prompt l.text) t₂.screen = .ok () t₃.screen) :
    Paints t t₃ { finished := [prompt ++ l.text] } := by
  obtain ⟨h, -, -⟩ := h
  obtain ⟨s, rfl, ht⟩ := h.split hr
  have hs := screen_of_leaveRaw hl
  exact ((h.paints hp hn hr).of_screen hs).print hf (TerminalRow.paint_finalFrame _ hp ht _)

theorem last_of_outcome {last : Option Key} {text : Text} (h : outcome l last = .line text) :
    last = some .enter ∧ l.text = text := by
  unfold outcome at h
  split at h
  · exact ⟨rfl, ReadOutcome.line.inj h⟩
  · cases h

/-- What the row shows while a line is read. -/
structure ShowsLine (prompt : Text) (t : Terminal) : Prop where
  /-- The empty line comes first, unless raw mode is refused or the prompt cannot be written. -/
  prompted : (∃ t₁, Typed prompt t {} t₁) ∨ (∃ e t₁, enterRaw t = .error e t₁) ∨
    ∃ t₁ e t₂, enterRaw t = .ok () t₁ ∧ display prompt t₁ = .error e t₂
  /-- Each key that does not end the line has its turn, unless its frame cannot be written. -/
  turned : ∀ l t₁ key input, Typed prompt t l t₁ →
    Key.read t₁.keyboard.input = .ok (some key) input → Key.endsLine (some key) = false →
    (∃ t₂, Turn prompt key l t₁ (edit key l t₁.keyboard.history).1 t₂) ∨
      ∃ e screen, Sink.print (lineFrame prompt.length (edit key l t₁.keyboard.history).1)
        t₁.screen = .error e screen
  /-- Before the first turn and after each, the row reads the prompt and the line with nothing after
  them, and the column is that of the cursor in the line. -/
  typed : ∀ l t₁, Typed prompt t l t₁ → readLine prompt t = readKeys prompt l t₁ ∧
    (l.text.length ≤ Escape.countLimit →
      Paints t t₁ { cells := prompt ++ l.text, column := prompt.length + l.cursor })
  /-- The finished row reads the prompt and the line that is returned, and the next row is begun. -/
  submitted : ∀ text t', readLine prompt t = .ok (.line text) t' →
    Paints t t' { finished := [prompt ++ text] }

/-- **The screen shows the line that is typed.** -/
theorem readLine_showsLine (prompt : Text) (t : Terminal) (hp : prompt.Printable)
    (hn : prompt.length ≤ Escape.countLimit) (hring : t.keyboard.history.Printable) :
    ShowsLine prompt t where
  prompted := by
    cases he : enterRaw t with
    | error e t₁ => exact .inr (.inl ⟨e, t₁, rfl⟩)
    | ok _ t₁ =>
      cases hd : display prompt t₁ with
      | ok _ t₂ => exact .inl ⟨t₂, .prompted he hd⟩
      | error e t₂ => exact .inr (.inr ⟨t₁, e, t₂, rfl, hd⟩)
  turned l t₁ key input h hk he := by
    obtain ⟨screen, ht⟩ | hp := turn_or_unpainted prompt l hk he
    · exact .inl ⟨_, ht⟩
    · exact .inr hp
  typed l t₁ h := by
    refine ⟨readLine_of_typed h, fun hl => ?_⟩
    obtain ⟨s, rfl, -⟩ := h.split hring
    have hc : s.toLine.cursor ≤ Escape.countLimit := Nat.le_trans s.cursor_toLine_le hl
    have hs := h.paints hp hn hring
    rw [TerminalRow.ofLine, Nat.min_eq_left hc] at hs
    exact hs
  submitted text t' h := by
    obtain ⟨l, last, t₁, hc, hr⟩ := closes_of_ok h
    obtain ⟨e, t₂, -, hx⟩ | ⟨t₂, e, screen, -, -, hx⟩ | ⟨t₂, screen, hl, hf, hx⟩ :=
      close_cases prompt l last t₁
    · cases hr.symm.trans hx
    · cases hr.symm.trans hx
    · -- Only the enter key gives a line.
      obtain ⟨ho, rfl⟩ := EStateM.Result.ok.inj (hr.symm.trans hx)
      obtain ⟨rfl, rfl⟩ := last_of_outcome ho.symm
      refine hc.paints_finished hp hn hring hl ?_
      rw [screen_of_remember]
      exact hf

/-- The keys up, left, backspace three times, `o` and return. -/
def retypedBytes : Bytes := [0x1B, 0x5B, 0x41, 0x1B, 0x5B, 0x44, 0x7F, 0x7F, 0x7F, 0x6F, 0x0D]

/-- A terminal on which a line is recalled and deleted from both sides of the cursor. Nothing is left
to delete at the third backspace, which paints no frame. -/
def retyping : Terminal where
  keyboard := {
    input := .ofBytes retypedBytes
    history := (HistoryRing.ofCapacity 2).submit ['h', 'i'] }

theorem readLine_showsLine_retyped :
    ∃ t', readLine ['>', ' '] retyping = .ok (.line ['o']) t' ∧
      Paints retyping t' { finished := [['>', ' ', 'o']] } := by
  have h := readLine_showsLine ['>', ' '] retyping (by decide) (by decide) (by decide)
  have hf : retyping.Follows ⟨retypedBytes, (HistoryRing.ofCapacity 2).submit ['h', 'i']⟩ :=
    ⟨InputStream.delivers_ofBytes _, rfl, ⟨fun _ => rfl, fun _ => rfl⟩, ⟨rfl, fun _ => rfl⟩⟩
  have ho : (LineEditor.readLine ⟨retypedBytes, (HistoryRing.ofCapacity 2).submit ['h', 'i']⟩).1 =
      .line ['o'] := by
    decide +kernel
  obtain ⟨t', hr, -⟩ := readLine_follows ['>', ' '] hf
  rw [ho] at hr
  exact ⟨t', hr, h.submitted _ _ hr⟩

end Terminal
end LineRepl
