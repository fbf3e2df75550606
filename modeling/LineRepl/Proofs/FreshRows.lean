import LineRepl.Proofs.Recalls

/-! Where prompts stand. Whatever a session shows between two prompts, it shows whole rows: each page
of the screen ends in a line feed, text of other programs is given one where it lacks it, and a line
that was read is left with a new row. So each prompt is written at the start of a row, whatever fails
in between, as long as the session goes on. -/
namespace LineRepl

open Attempt

/-! ## Pages of whole rows -/

namespace Screen

theorem complete_banner (colour : Bool) : (banner colour).Complete := Text.complete_append_feed _

theorem complete_cleared (colour : Bool) : (cleared colour).Complete := by
  have hne : banner colour ≠ [] := List.append_ne_nil_of_right_ne_nil _ (List.cons_ne_nil _ _)
  exact (Text.complete_append_of_ne_nil _ hne).mpr (complete_banner colour)

theorem complete_listing (colour : Bool) (lines : List Text) :
    (listing colour lines).Complete := by
  have hfrom (number : Nat) : (listingFrom colour number lines).Complete := by
    induction lines generalizing number with
    | nil => exact Text.complete_nil
    | cons line rest ih => exact (Text.complete_append_feed _).append (ih (number + 1))
  exact hfrom 1

theorem complete_help (colour : Bool) : (help colour).Complete := by
  have hentries : Text.Complete (Command.all.flatMap (helpEntry colour)) := by
    refine Text.complete_flatten fun entry he => ?_
    obtain ⟨c, -, rfl⟩ := List.mem_map.mp he
    exact Text.complete_append_feed _
  exact (Text.complete_append_feed _).append hentries

theorem complete_diagnostic (colour : Bool) (s : Style) (label message : Text) :
    (diagnostic colour s label message).Complete := Text.complete_append_feed _

theorem complete_passage (text : Text) : (passage text).Complete := by
  unfold passage
  split
  · rename_i h
    rw [Bool.or_eq_true, List.isEmpty_iff, beq_iff_eq] at h
    exact Text.complete_iff.mpr h
  · exact Text.complete_append_feed text

/-- All that can be shown are whole rows. -/
theorem complete_page (colour : Bool) (v : Showing) : (v.page colour).Complete := by
  cases v with
  | banner => exact complete_banner colour
  | cleared => exact complete_cleared colour
  | help => exact complete_help colour
  | listing lines => exact complete_listing colour lines
  | error message | warning message => exact complete_diagnostic colour _ _ message
  | buildErrors text | programOutput text => exact complete_passage text

end Screen

namespace Sink

variable {s s₁ s₂ : Sink} {t u : Text}

/-- What was written from one state of an output to the other is this text. -/
def Adds (s : Sink) (t : Text) (s' : Sink) : Prop := s'.written = s.written ++ t.utf8

theorem Adds.nothing (s : Sink) : s.Adds [] s := Array.appendList_nil.symm

theorem Adds.trans (h : s.Adds t s₁) (h' : s₁.Adds u s₂) : s.Adds (t ++ u) s₂ := by
  unfold Adds at h h' ⊢
  rw [h', h, Text.utf8_append]
  apply Array.ext'
  simp only [Array.toList_appendList, List.append_assoc]

/-- What was written are whole rows, or nothing. -/
def AddsRows (s s' : Sink) : Prop := ∃ t : Text, t.Complete ∧ s.Adds t s'

theorem AddsRows.nothing (s : Sink) : s.AddsRows s := ⟨[], Text.complete_nil, .nothing s⟩

theorem AddsRows.trans (h : s.AddsRows s₁) (h' : s₁.AddsRows s₂) : s.AddsRows s₂ := by
  obtain ⟨t, ht, ha⟩ := h
  obtain ⟨u, hu, ha'⟩ := h'
  exact ⟨t ++ u, ht.append hu, ha.trans ha'⟩

/-- Rows end in the byte of a line feed. -/
theorem AddsRows.bytes (h : s.AddsRows s₁) :
    ∃ added : Bytes, s₁.written = s.written ++ added ∧
      (added = [] ∨ added.getLast? = some 10) := by
  obtain ⟨t, hc, ha⟩ := h
  refine ⟨t.utf8, ha, ?_⟩
  by_cases ht : t = []
  · exact .inl (ht ▸ rfl)
  · obtain ⟨a, rfl⟩ := hc.exists_eq_append ht
    rw [Text.utf8_append]
    exact .inr List.getLast?_concat

end Sink

/-! ## Reading a line -/

namespace Terminal

variable {prompt : Text} {l : EditLine} {t t₁ : Terminal}

theorem Typed.adds (h : Typed prompt t l t₁) : ∃ text, t.screen.Adds text t₁.screen := by
  induction h with
  | prompted he hd =>
    have hp := Sink.written_of_print (print_of_display hd)
    rw [screen_of_enterRaw he] at hp
    exact ⟨prompt, hp⟩
  | @turn key l l' t₁ t₂ h ht ih =>
    obtain ⟨text, ha⟩ := ih
    cases hb : repaints key l with
    | true => exact ⟨_, ha.trans (Sink.written_of_print (ht.painted hb))⟩
    | false => exact ⟨text, ht.unpainted hb ▸ ha⟩

/-- The last frame moves on to a new row, whichever key it follows. -/
theorem complete_append_lastFrame (text prompt : Text) (l : EditLine) (last : Option Key) :
    (text ++ lastFrame prompt l last).Complete := by
  have hrow (a : Text) : (a ++ Escape.newRow).Complete :=
    (Text.complete_append_of_ne_nil a (List.cons_ne_nil _ _)).mpr (Text.complete_append_feed ['\r'])
  unfold lastFrame
  split
  · rw [finalFrame, ← List.append_assoc]
    exact hrow _
  · exact hrow text

/-- A reading that succeeds leaves the row that it was typed on. -/
theorem readLine_addsRows {o : ReadOutcome} {t' : Terminal} (h : readLine prompt t = .ok o t') :
    t.screen.AddsRows t'.screen := by
  obtain ⟨l, last, t₁, ⟨htyped, -, -⟩, hclose⟩ := closes_of_ok h
  obtain ⟨text, ha⟩ := htyped.adds
  obtain ⟨_, _, -, hc⟩ | ⟨_, _, _, -, -, hc⟩ | ⟨t₂, screen, hl, hp, hc⟩ :=
    close_cases prompt l last _
  · cases hc.symm.trans hclose
  · cases hc.symm.trans hclose
  · obtain ⟨-, rfl⟩ := EStateM.Result.ok.inj (hc.symm.trans hclose)
    rw [screen_of_leaveRaw hl] at hp
    rw [screen_of_remember]
    exact ⟨_, complete_append_lastFrame text prompt l last, ha.trans (Sink.written_of_print hp)⟩

end Terminal

/-! ## Handling a line -/

namespace Session

variable {ω ε α : Type}

/-- An action that succeeds has shown whole rows. -/
def ShowsRows (act : Action ω α) : Prop :=
  ∀ s, Ends act s (fun _ s' => s.output.AddsRows s'.output) fun _ _ => True

theorem display_showsRows {text : Text} (h : text.Complete) :
    ShowsRows (display text : Action ω Unit) := by
  intro s
  refine (display_ends text s).mono ?_ fun _ _ _ => trivial
  rintro _ _ ⟨output, hp, rfl⟩
  exact ⟨text, h, Sink.written_of_print hp⟩

theorem present_showsRows (v : Screen.Showing) : ShowsRows (present v : Action ω Unit) :=
  fun s => display_showsRows (Screen.complete_page s.options.colour v) s

theorem onBuffer_showsRows (act : EStateM ε (Buffer ω) α) : ShowsRows (onBuffer act) := by
  intro s
  refine (onBuffer_ends .any).mono ?_ fun _ _ _ => trivial
  rintro _ _ ⟨buffer, -, rfl⟩
  exact .nothing s.output

variable [Workshop ω]

/-- Whatever the line, and however the store, the tools and the log answer. -/
theorem handling_showsRows : Handling (ω := ω) ShowsRows where
  pure _ s := .nothing s.output
  bind hx hf s := (hx s).bind
    (fun a t ht => (hf a t).mono (fun _ _ => ht.trans) fun _ _ => id) fun _ _ => id
  present := present_showsRows
  appendLog tag text s := by
    refine (appendLog_ends trivial fun _ _ => .any).mono ?_ fun _ _ _ => trivial
    rintro _ _ ⟨store, -, rfl⟩
    exact .nothing s.output
  callTools s := by
    refine (callTools_ends .any).mono ?_ fun _ _ _ => trivial
    rintro _ _ ⟨store, -, rfl⟩
    exact .nothing s.output
  enter text := onBuffer_showsRows (enter text)
  newRow := display_showsRows (Text.complete_append_feed [])
  applyLine line s := onBuffer_showsRows (Buffer.runLine s.options.skeleton line) s

/-! ## From prompt to prompt -/

variable {keyboard keyboard₁ : Keyboard} {s s₀ s₁ : Session ω}

theorem Round.addsRows {line : Text} {flow : Flow} (h : Round keyboard s line flow keyboard₁ s₁) :
    s.output.AddsRows s₁.output := by
  obtain ⟨hr, hh⟩ := h
  exact (Terminal.readLine_addsRows hr).trans ((handling_showsRows.handleLine line _).ok_of hh)

theorem Reached.addsRows (h : Reached keyboard s keyboard₁ s₁) :
    s.output.AddsRows s₁.output := by
  induction h with
  | start => exact .nothing s.output
  | round _ hr ih => exact ih.trans hr.addsRows

/-- The prompt of the next round has just been written. -/
def Prompts (keyboard : Keyboard) (s : Session ω) (t : Terminal) : Prop :=
  ∃ t₁, Terminal.enterRaw ⟨keyboard, s.output⟩ = .ok () t₁ ∧
    Terminal.display (Screen.prompt s.buffer.cursor) t₁ = .ok () t

omit [Workshop ω] in
theorem exists_banner (ho : s.output.Unfailing) :
    ∃ s₀, showBanner s = .ok () s₀ ∧ s₀.output.Unfailing := by
  obtain ⟨_, s₀, hb, h₀⟩ :=
    ((present_alike .banner).shown s).exists_ok fun _ _ hn => hn ho
  exact ⟨s₀, hb, h₀ ho⟩

omit [Workshop ω] in
theorem exists_prompts (hm : keyboard.mode.Unfailing) (ho : s.output.Unfailing) :
    ∃ t, Prompts keyboard s t := by
  obtain ⟨_, t₁, he, -⟩ :=
    (Terminal.enterRaw_after ⟨keyboard, s.output⟩).exists_ok fun _ _ hn => hn ⟨hm, ho⟩
  have hscreen : t₁.screen = s.output := Terminal.screen_of_enterRaw he
  obtain ⟨screen, hp, -⟩ := ho.print (Screen.prompt s.buffer.cursor)
  exact ⟨{ t₁ with screen }, t₁, he, by simp only [Terminal.display, within_apply, hscreen, hp]⟩

/-- **Every prompt starts on a fresh row**, with a banner before the first one or without, in either
colour setting, and whatever the store, the tools and the log do: what a session has written before a
prompt is nothing or ends in a line feed. -/
theorem prompts_on_fresh_rows {t : Terminal} (hs : s₀ = s ∨ showBanner s = .ok () s₀)
    (h : Reached keyboard s₀ keyboard₁ s₁) (hp : Prompts keyboard₁ s₁ t) :
    run keyboard s₀ = run keyboard₁ s₁ ∧
      ∃ before : Bytes, (before = [] ∨ before.getLast? = some 10) ∧
        t.screen.written =
          s.output.written ++ before ++ (Screen.prompt s₁.buffer.cursor).utf8 := by
  have hstart : s.output.AddsRows s₀.output := by
    obtain rfl | hb := hs
    · exact .nothing _
    · exact (present_showsRows .banner s).ok_of hb
  obtain ⟨before, hw, hlast⟩ := (hstart.trans h.addsRows).bytes
  obtain ⟨t₁, he, hd⟩ := hp
  refine ⟨run_of_reached h, before, hlast, ?_⟩
  rw [Sink.written_of_print (Terminal.print_of_display hd), Terminal.screen_of_enterRaw he, ← hw]

/-- A session in colour whose programs end in the middle of a row, and with a status of their own. -/
def talkative : Session Rehearsal where
  buffer :=
    { store :=
        { place := { inner := ⟨⟨[], []⟩, .memory Buffer.closingLine⟩, schedule := FaultyStore.never }
          answers := fun _ => .ok { run := some { exitCode := 3, stdout := "hi".toList } } }
      index := LineIndex.scan Buffer.closingLine }
  options := { block with colour := true }

/-- The prompt after the banner and one line of program text. -/
theorem prompts_on_fresh_rows_talkative :
    ∃ s₀ keyboard₁ s₁ t, showBanner talkative = .ok () s₀ ∧
      Round ⟨.ofBytes [0x78, 0x3B, 0x0D], {}, .ofCapacity 1⟩ s₀ ['x', ';'] .proceed keyboard₁ s₁ ∧
      Prompts keyboard₁ s₁ t ∧
      ∃ before : Bytes, (before = [] ∨ before.getLast? = some 10) ∧
        t.screen.written =
          talkative.output.written ++ before ++ (Screen.prompt s₁.buffer.cursor).utf8 := by
  have hm : ({} : ModeSwitch).Unfailing := ⟨fun _ => rfl, fun _ => rfl⟩
  have ho : talkative.output.Unfailing := ⟨rfl, fun _ => rfl⟩
  obtain ⟨s₀, hbanner, h₀⟩ := exists_banner ho
  have htext : (InputStream.ofBytes [0x78, 0x3B, 0x0D]).Yields (Text.utf8 ['x', ';'] ++ [0x0D])
      (.ofBytes []) :=
    .cons rfl (.cons rfl (.cons rfl (.nil _)))
  have hfirst : Resubmits ['x', ';'] (.ofBytes []) ⟨.ofBytes [0x78, 0x3B, 0x0D], {}, .ofCapacity 1⟩
      s₀ :=
    Terminal.readLine_types _ (t := ⟨⟨_, _, _⟩, _⟩) (by decide) htext
  obtain ⟨flow, s₁, h, h₁⟩ := hfirst.exists_round hm h₀
  have hflow : flow = .proceed := by
    obtain ⟨-, hh⟩ := h
    rw [handleLine_text (by decide), bind_apply] at hh
    split at hh
    · exact (EStateM.Result.ok.inj hh).1.symm
    · cases hh
  subst hflow
  obtain ⟨t, hp⟩ : ∃ t, Prompts (resubmitted ['x', ';'] (.ofBytes [])
      ⟨.ofBytes [0x78, 0x3B, 0x0D], {}, .ofCapacity 1⟩) s₁ t :=
    exists_prompts (hm.after [.raw, .cooked]) h₁
  obtain ⟨-, hfresh⟩ := prompts_on_fresh_rows (.inr hbanner) (.round .start h) hp
  exact ⟨s₀, _, s₁, t, hbanner, h, hp, hfresh⟩

end Session
end LineRepl
