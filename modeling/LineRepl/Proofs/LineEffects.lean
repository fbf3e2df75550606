import LineRepl.Proofs.AlikeSessions
import LineRepl.Proofs.ClosedSessions
import LineRepl.Proofs.SessionEndings
import LineRepl.Proofs.Spellings

/-! What a line may touch. A line that commits calls the tools, once where no write is refused. Any
other line calls none, and of the session it changes what it changes of the page and what is on the
screen: only removing lines and a reset change the text, and only `goto` moves the cursor besides. -/
namespace LineRepl

open Attempt Buffer

/-! ## Kinds of lines -/

/-- The lines that change the text and commit nothing. -/
def Rewrites (line : Text) : Prop :=
  Statement.isStatement line = true ∧
    ∃ s, Statement.parse line = .ok s ∧ s.command ∈ [.delete, .reset]

/-- The lines that are refused, and those that only show something. -/
def Spares (line : Text) : Prop :=
  Statement.isStatement line = true ∧
    ((∃ e, Statement.parse line = .error e) ∨
      ∃ s, Statement.parse line = .ok s ∧ s.command ∈ [.print, .clearScreen])

/-- The lines that send the cursor to line `n`. -/
def GoesTo (n : Nat) (line : Text) : Prop :=
  Statement.isStatement line = true ∧
    Statement.parse line = .ok { command := .goto, arg := some (.line n) }

section Lines

variable {line : Text} {s : Statement} {n : Nat}

theorem eq_of_parse_goto (hp : Statement.parse line = .ok s) (hc : s.command = .goto) :
    ∃ n, s = { command := .goto, arg := some (.line n) } := by
  cases Statement.wellFormed_of_parse hp with
  | goto => exact ⟨_, rfl⟩
  | delete => cases hc
  | bare hm | write hm | writeAt hm =>
    obtain rfl : _ = Command.goto := hc
    exact absurd hm (by decide)

/-- There are no others. -/
theorem line_kinds (line : Text) :
    Commits line ∨ Rewrites line ∨ Spares line ∨ ∃ n, GoesTo n line := by
  cases hs : Statement.isStatement line with
  | false => exact .inl (.inl hs)
  | true =>
    cases hp : Statement.parse line with
    | error e => exact .inr (.inr (.inl ⟨hs, .inl ⟨e, hp⟩⟩))
    | ok s =>
      cases hc : s.command with
      | goto =>
        obtain ⟨n, rfl⟩ := eq_of_parse_goto hp hc
        exact .inr (.inr (.inr ⟨n, hs, hp⟩))
      | print | clearScreen =>
        exact .inr (.inr (.inl ⟨hs, .inr ⟨s, hp, by rw [hc]; decide⟩⟩))
      | delete | reset => exact .inr (.inl ⟨hs, s, hp, by rw [hc]; decide⟩)
      | insert | replace | quit | help => exact .inl (.inr ⟨s, hp, by rw [hc]; decide⟩)

theorem Spares.not_commits (h : Spares line) : ¬ Commits line := by
  obtain ⟨hs, h⟩ := h
  rintro (hn | ⟨s, hp, hc⟩)
  · cases hs.symm.trans hn
  · obtain ⟨e, he⟩ | ⟨s', ho, hm⟩ := h
    · cases he.symm.trans hp
    · obtain rfl := Except.ok.inj (ho.symm.trans hp)
      simp only [List.mem_cons, List.not_mem_nil, or_false] at hm
      rcases hm with hm | hm
      · exact absurd hc (by rw [hm]; decide)
      · exact absurd hc (by rw [hm]; decide)

theorem GoesTo.not_commits (h : GoesTo n line) : ¬ Commits line := by
  rintro (hn | ⟨s, hp, hc⟩)
  · cases h.1.symm.trans hn
  · obtain rfl := Except.ok.inj (h.2.symm.trans hp)
    exact absurd (show Command.goto ∈ _ from hc) (by decide)

end Lines

/-! ## Pages -/

namespace Page

variable {skeleton line : Text} {s : Statement} {n : Nat}

theorem handled_of_error {e : CommandError} (hs : Statement.isStatement line = true)
    (hp : Statement.parse line = .error e) (p : Page) : p.handled skeleton line = p := by
  rw [handled, if_pos hs, hp]

theorem request_uncommitted (h : s.command ∉ [.insert, .replace, .quit, .help]) (p : Page) :
    (p.request s).committed? = none := by
  unfold request
  cases hc : s.command with
  | insert | replace | quit | help => exact absurd (by rw [hc]; decide) h
  | _ => rfl

theorem handled_of_ok (hs : Statement.isStatement line = true) (hp : Statement.parse line = .ok s)
    (h : s.command ∉ [.insert, .replace, .quit, .help]) (p : Page) :
    p.handled skeleton line = p.applied skeleton s := by
  rw [handled, if_pos hs, hp]
  simp only [performed, request_uncommitted h]

theorem handled_of_spares (h : Spares line) (p : Page) : p.handled skeleton line = p := by
  obtain ⟨hs, ⟨e, he⟩ | ⟨s, hp, hc⟩⟩ := h
  · exact handled_of_error hs he p
  · simp only [List.mem_cons, List.not_mem_nil, or_false] at hc
    rcases hc with hc | hc
    all_goals
      rw [handled_of_ok hs hp (by rw [hc]; decide)]
      simp only [applied, hc]

theorem handled_of_goesTo (h : GoesTo n line) (p : Page) :
    p.handled skeleton line =
      { p with cursor := if 1 ≤ n ∧ n < p.lineCount then n else p.cursor } := by
  have hc : Command.goto ∉ [.insert, .replace, .quit, .help] := by decide
  rw [handled_of_ok h.1 h.2 hc]
  simp only [applied, aimed, setCursor]
  split <;> rfl

end Page

/-! ## Buffers -/

namespace Buffer

variable {σ : Type} {holds : σ → Text → Prop} {b b' : Buffer σ} {K : Text} {cursor : Nat}

/-- `b'` is `b`, which holds `K`, with the cursor on this line. -/
structure Stands (holds : σ → Text → Prop) (K : Text) (cursor : Nat) (b b' : Buffer σ) :
    Prop where
  contents : holds b'.store K
  index : b'.index = b.index
  cursor : b'.cursor = cursor
  mode : b'.mode = b.mode

theorem Consistent.stands (h : Consistent holds b K) (h' : Shows holds b' ⟨K, cursor, b.mode⟩) :
    Stands holds K cursor b b' :=
  ⟨h'.held, h'.index.trans h.index.symm, h'.cursor, h'.mode⟩

/-- Under observation, with what the tools have found so far. -/
theorem Consistent.shows_since {ω : Type} {holds : ω → Text → Prop} {b : Buffer (Observed ω)}
    (h : Consistent (fun (w : Observed ω) t => holds w.inner t) b K) :
    Shows (fun w t => holds w.inner t ∧ w.seen = b.store.seen) b ⟨K, b.cursor, b.mode⟩ :=
  h.shows.of_held ⟨h.held, rfl⟩

end Buffer

namespace Session

/-! ## Lines that commit nothing -/

section Uncommitted

variable {ω : Type} [Workshop ω] {holds : ω → Text → Prop} {s : Session ω} {p : Page} {line : Text}

theorem perform_leavesBuffer {a : LineRepl.Action} (ha : a.committed? = none) :
    LeavesBuffer (perform a : Action ω Flow) := by
  intro s b h
  cases a with
  | done => exact h
  | clearScreen => exact (present_leavesBuffer _ h).bind (fun _ _ h₁ => h₁) fun _ _ => id
  | print lines => exact (present_leavesBuffer _ h).bind (fun _ _ h₁ => h₁) fun _ _ => id
  | commit | help | quit => cases ha

/-- Whatever the tools do, since they are not called. -/
theorem handleLine_uncommitted (k : Reliable holds) (h : Shows holds s.buffer p) (hp : p.InRange)
    (hn : ¬ Commits line) :
    Ends (handleLine line) s
      (fun _ s' => Shows holds s'.buffer (p.handled s.options.skeleton line))
      (fun _ s' => Shows holds s'.buffer (p.handled s.options.skeleton line)) := by
  have hs : Statement.isStatement line = true := eq_true_of_ne_false fun hs => hn (.inl hs)
  cases hl : Statement.parse line with
  | error e =>
    rw [Ends, handleLine_of_error hs hl, Page.handled_of_error hs hl]
    refine (present_leavesBuffer _ (s := s) rfl).bind ?_ fun _ _ hb => hb ▸ h
    intro _ s₁ hb
    show Shows holds s₁.buffer p
    exact hb ▸ h
  | ok st =>
    have hc : st.command ∉ [.insert, .replace, .quit, .help] := fun hc => hn (.inr ⟨st, hl, hc⟩)
    obtain ⟨b', -, h', he⟩ := handleLine_of_statement hs k h hp hl
    have hb := perform_leavesBuffer (Page.request_uncommitted hc p)
      (s := { s with buffer := b' }) rfl
    rw [Ends, he, Page.handled_of_ok hs hl hc]
    exact hb.mono (fun _ _ hb => hb ▸ h') fun _ _ hb => hb ▸ h'

end Uncommitted

/-! ## Lines that commit -/

section Committed

variable {ω : Type} [Workshop ω] {holds : Observed ω → Text → Prop} {s : Session (Observed ω)}
  {p : Page} (k : Reliable holds)
include k

theorem commit_calls (h : Shows holds s.buffer p) (text : Text) :
    Ends (commit text) s (fun _ s' => ∃ w, Leads [w] s s') (Breaks s) := by
  obtain ⟨b', hr, -⟩ := enter_shows k h.toReads text
  have hf : Commit.found? ⟨text, s.buffer⟩ = some b'.store.inner := by rw [Commit.found?_eq, hr]
  have hl := commit_leads text s
  rw [hf] at hl
  exact hl.mono (fun _ _ h₁ => ⟨_, h₁⟩) fun _ _ => id

theorem finalize_calls (h : Shows holds s.buffer p) :
    Ends finalize s (fun _ s' => ∃ w, Leads [w] s s') (Breaks s) := by
  refine (commit_calls k h []).bind ?_ fun _ _ => id
  rintro _ s₁ ⟨w, h₁⟩
  exact ((display_quiet ['\n']).after h₁).mono (fun _ _ h₂ => ⟨w, h₂⟩) fun _ _ => id

theorem perform_calls (h : Shows holds s.buffer p) {a : LineRepl.Action} {text : Text}
    (ha : a.committed? = some text) :
    Ends (perform a) s (fun _ s' => ∃ w, Leads [w] s s') (Breaks s) := by
  cases a with
  | commit text => exact (commit_calls k h text).bind (fun _ _ h₁ => h₁) fun _ _ => id
  | help =>
    refine ((telling_quiet.present .help s).both (present_leavesBuffer .help rfl)).bind ?_
      fun _ _ he => he.1
    rintro _ s₁ ⟨hl, hb⟩
    refine (finalize_calls k (hb ▸ h)).bind ?_ fun _ _ => hl.breaks
    rintro _ s₂ ⟨w, h₂⟩
    exact ⟨w, hl.trans h₂⟩
  | quit => exact (finalize_calls k h).bind (fun _ _ h₁ => h₁) fun _ _ => id
  | done | clearScreen | print => cases ha

/-- One call of the tools, unless the screen breaks off before it. -/
theorem handleLine_calls (h : Shows holds s.buffer p) (hp : p.InRange) {line : Text}
    (hc : Commits line) :
    Ends (handleLine line) s (fun _ s' => ∃ w, Leads [w] s s') (Breaks s) := by
  cases hs : Statement.isStatement line with
  | false =>
    rw [handleLine_text hs]
    exact (commit_calls k h line).bind (fun _ _ h₁ => h₁) fun _ _ => id
  | true =>
    obtain hn | ⟨st, hl, hc⟩ := hc
    · rw [hs] at hn
      cases hn
    · obtain ⟨text, ht⟩ := Page.request_commits hc p
      obtain ⟨b', hr, h', he⟩ := handleLine_of_statement hs k h hp hl
      have hseen := (Buffer.run_preserves (Observed.stable s.buffer.store.seen) s.options.skeleton st
        s.buffer rfl).ok_of hr
      have hb : Leads [] s { s with buffer := b' } := leads_buffer hseen
      rw [Ends, he]
      refine (perform_calls k (s := { s with buffer := b' }) h' ht).mono ?_ fun _ _ => hb.breaks
      rintro _ s' ⟨w, h₁⟩
      exact ⟨w, hb.trans h₁⟩

end Committed

/-! ## All lines -/

section Lines

variable {ω : Type} [Workshop ω] {holds : ω → Text → Prop} {s : Session (Observed ω)} {K : Text}
  (k : Reliable holds) (h : Consistent (fun (w : Observed ω) t => holds w.inner t) s.buffer K)
  (ho : s.output.Unfailing)
include k h ho

theorem handleLine_calls_once {line : Text} (hc : Commits line) :
    ∃ flow s', handleLine line s = .ok flow s' ∧
      s'.buffer.store.seen.length = s.buffer.store.seen.length + 1 := by
  have hk := Observed.keeps_with k fun seen => seen = s.buffer.store.seen
  have hl := handleLine_calls hk h.shows_since h.inRange hc
  obtain ⟨flow, s', hr, ⟨w, hl⟩, -⟩ := (hl.both ((handleLine_alike line).shown s)).exists_ok
    fun _ _ he => he.2 ho
  refine ⟨flow, s', hr, ?_⟩
  rw [hl.seen, List.length_append, List.length_singleton]

/-- The page is the one that the line makes. -/
theorem handleLine_calls_never {line : Text} (hn : ¬ Commits line) :
    ∃ flow s', handleLine line s = .ok flow s' ∧
      s'.buffer.store.seen = s.buffer.store.seen ∧
      Shows (fun (w : Observed ω) t => holds w.inner t) s'.buffer
        (Page.handled s.options.skeleton line ⟨K, s.buffer.cursor, s.buffer.mode⟩) := by
  -- that nothing more was seen is kept along with the text
  have hk := Observed.keeps_with k fun seen => seen = s.buffer.store.seen
  have hl := handleLine_uncommitted hk h.shows_since h.inRange hn
  obtain ⟨flow, s', hr, hp, -⟩ := (hl.both ((handleLine_alike line).shown s)).exists_ok
    fun _ _ he => he.2 ho
  exact ⟨flow, s', hr, hp.held.2, hp.of_held hp.held.1⟩

/-- **What a line may touch.** Over a store that never fails, and with a screen that shows everything,
the tools are called once by a line that commits and not at all by any other, and only these lines,
`del` and `reset` change the text. A line that is refused, `print` and `cls` leave the buffer as it
is, and `goto` puts the cursor on a line that is there and leaves the rest. -/
theorem handleLine_touches (line : Text) :
    let Kept := Stands (fun (w : Observed ω) t => holds w.inner t) K
    ∃ flow s', handleLine line s = .ok flow s' ∧
      (Commits line → s'.buffer.store.seen.length = s.buffer.store.seen.length + 1) ∧
      (¬ Commits line → s'.buffer.store.seen = s.buffer.store.seen) ∧
      (¬ Commits line → ¬ Rewrites line → holds s'.buffer.store.inner K) ∧
      (Spares line → Kept s.buffer.cursor s.buffer s'.buffer) ∧
      ∀ n, GoesTo n line →
        Kept (if 1 ≤ n ∧ n < s.buffer.lineCount then n else s.buffer.cursor) s.buffer s'.buffer := by
  intro Kept
  by_cases hc : Commits line
  · obtain ⟨flow, s', hr, hcalls⟩ := handleLine_calls_once k h ho hc
    exact ⟨flow, s', hr, fun _ => hcalls, absurd hc, absurd hc, fun hs => absurd hc hs.not_commits,
      fun _ hg => absurd hc hg.not_commits⟩
  · obtain ⟨flow, s', hr, hseen, hp⟩ := handleLine_calls_never k h ho hc
    have hspared (hs : Spares line) : Kept s.buffer.cursor s.buffer s'.buffer := by
      rw [Page.handled_of_spares hs] at hp
      exact h.stands hp
    have hgone (n : Nat) (hg : GoesTo n line) :
        Kept (if 1 ≤ n ∧ n < s.buffer.lineCount then n else s.buffer.cursor)
          s.buffer s'.buffer := by
      rw [Page.handled_of_goesTo hg] at hp
      rw [h.shows.lineCount]
      exact h.stands hp
    refine ⟨flow, s', hr, fun h => absurd h hc, fun _ => hseen, fun _ hw => ?_, hspared, hgone⟩
    obtain h | h | hs | ⟨n, hg⟩ := line_kinds line
    · exact absurd h hc
    · exact absurd h hw
    · exact (hspared hs).contents
    · exact (hgone n hg).contents

end Lines

/-- A line that moves the cursor, one that is refused and one that commits before it ends the
session. -/
theorem handleLine_touches_block :
    let s := (rehearsed "f()\x7b\x7d\nint x;\n\x7d\n".toList 1 .insert).observed
    (∃ flow s', handleLine "$goto 2".toList s = .ok flow s' ∧ s'.buffer.cursor = 2 ∧
        s'.buffer.store.seen.length = 0 ∧
        Rehearsal.Holds s'.buffer.store.inner "f()\x7b\x7d\nint x;\n\x7d\n".toList) ∧
      (∃ flow s', handleLine "$quit now".toList s = .ok flow s' ∧ s'.buffer.cursor = 1) ∧
      ∃ flow s', handleLine "$quit".toList s = .ok flow s' ∧ s'.buffer.store.seen.length = 1 := by
  intro s
  have h : Consistent (fun (w : Observed Rehearsal) t => Rehearsal.Holds w.inner t) s.buffer
      "f()\x7b\x7d\nint x;\n\x7d\n".toList := ⟨⟨rfl, rfl⟩, rfl, by decide, by decide⟩
  have ho : s.output.Unfailing := ⟨rfl, fun _ => rfl⟩
  have touches := handleLine_touches Rehearsal.reliable h ho
  refine ⟨?_, ?_, ?_⟩
  · obtain ⟨flow, s', hr, -, hnever, -, -, hgoto⟩ := touches "$goto 2".toList
    have hg : GoesTo 2 "$goto 2".toList := ⟨rfl, rfl⟩
    have hk := hgoto 2 hg
    exact ⟨flow, s', hr, hk.cursor, congrArg List.length (hnever hg.not_commits), hk.contents⟩
  · obtain ⟨flow, s', hr, -, -, -, hspared, -⟩ := touches "$quit now".toList
    exact ⟨flow, s', hr, (hspared ⟨rfl, .inl ⟨_, rfl⟩⟩).cursor⟩
  · obtain ⟨flow, s', hr, honce, -⟩ := touches "$quit".toList
    exact ⟨flow, s', hr, honce (.inr ⟨_, rfl, by decide⟩)⟩

end Session
end LineRepl
