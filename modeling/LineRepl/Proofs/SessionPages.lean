import LineRepl.Proofs.BufferPages
import LineRepl.Proofs.ClosedPages
import LineRepl.Proofs.SessionRules
import LineRepl.Session.Rehearsal
import LineRepl.Session.Run

/-! What a session does to the page of its buffer. The text changes where a line is applied or
entered and nowhere else: what is shown, logged, built and run leaves the page alone, provided that
the tools and the log do not write into the store themselves. -/
namespace LineRepl

open Attempt Buffer

/-- Neither the tools nor the log change the program text, whatever comes of them. -/
structure LeavesText {ω : Type} [Workshop ω] (holds : ω → Text → Prop) : Prop where
  buildAndRun (source : Path) {w : ω} {t : Text} : holds w t →
    Ends (Workshop.buildAndRun source) w (fun _ w => holds w t) (fun _ w => holds w t)
  appendLog (path : Path) (tag : LogTag) (text : Text) {w : ω} {t : Text} : holds w t →
    Ends (Workshop.appendLog path tag text) w (fun _ w => holds w t) (fun _ w => holds w t)

/-- The same of the calls that a session with these options makes: the tools leave the text alone when
they are called on its source file, and so does the log that it keeps. -/
structure SparesText {ω : Type} [Workshop ω] (holds : ω → Text → Prop) (o : SessionOptions) :
    Prop where
  buildAndRun {w : ω} {t : Text} : holds w t →
    Ends (Workshop.buildAndRun o.source) w (fun _ w => holds w t) (fun _ w => holds w t)
  appendLog {path : Path} (hp : o.log = some path) (tag : LogTag) (text : Text) {w : ω} {t : Text} :
    holds w t →
      Ends (Workshop.appendLog path tag text) w (fun _ w => holds w t) (fun _ w => holds w t)

theorem LeavesText.spares {ω : Type} [Workshop ω] {holds : ω → Text → Prop}
    (tools : LeavesText holds) (o : SessionOptions) : SparesText holds o where
  buildAndRun h := tools.buildAndRun o.source h
  appendLog _ tag text := tools.appendLog _ tag text

namespace Rehearsal

theorem wraps : Wraps place fun place r => { r with place } where
  part_put _ _ := rfl
  load := rfl
  replace _ := rfl
  append _ := rfl
  truncate _ := rfl
  readLineAt _ := rfl

/-- The text is kept in memory and no call is refused. -/
def Holds (r : Rehearsal) (t : Text) : Prop :=
  r.place.schedule = FaultyStore.never ∧ r.place.inner.Holds t

theorem reliable : Reliable Holds := wraps.keeps (FaultyStore.keeps_never Place.reliable)

/-- The answers are laid down, and the log is in the tree of files, so that a text in memory is out
of reach for both. -/
theorem leavesText : LeavesText Holds where
  buildAndRun source := by
    intro r t h
    show Ends (Rehearsal.buildAndRun source) _ _ _
    unfold Ends Rehearsal.buildAndRun
    cases r.answers r.calls.length <;> exact h
  appendLog path tag text := by
    intro r t h
    have happly : Workshop.appendLog path tag text r =
      onTree (Journal.append path r.secs tag text) r := rfl
    rw [Ends, happly]
    exact Ends.within_rest fun _ => h

end Rehearsal

namespace Session

variable {ω : Type} {holds : ω → Text → Prop} {α β : Type}

/-! ## What is shown -/

/-- However an action ends, the buffer is what it was. -/
def LeavesBuffer (act : Action ω α) : Prop :=
  ∀ ⦃s : Session ω⦄ ⦃b : Buffer ω⦄, s.buffer = b →
    Ends act s (fun _ s => s.buffer = b) fun _ s => s.buffer = b

theorem display_leavesBuffer (text : Text) : LeavesBuffer (display text : Action ω Unit) := by
  intro s b h
  refine (display_ends text s).mono ?_ ?_
  · rintro _ _ ⟨output, -, rfl⟩
    exact h
  · rintro _ _ ⟨io, output, -, -, rfl⟩
    exact h

theorem present_leavesBuffer (v : Screen.Showing) : LeavesBuffer (present v : Action ω Unit) :=
  fun _ _ h => display_leavesBuffer _ h

/-! ## What is run -/

/-- The session shows a page and has these options. -/
structure At (holds : ω → Text → Prop) (o : SessionOptions) (p : Page) (s : Session ω) : Prop where
  shows : Shows holds s.buffer p
  options : s.options = o

/-- However an action ends, the session is at the page at which it was before. -/
def KeepsPage (holds : ω → Text → Prop) (o : SessionOptions) (act : Action ω α) : Prop :=
  ∀ ⦃s : Session ω⦄ ⦃p : Page⦄, At holds o p s →
    Ends act s (fun _ s => At holds o p s) (fun _ s => At holds o p s)

section Pages

variable {o : SessionOptions}

/-- Only what is shown changes. -/
theorem At.withOutput {s : Session ω} {p : Page} (h : At holds o p s) (output : Sink) :
    At holds o p { s with output } :=
  ⟨h.shows, h.options⟩

/-- What comes of the store behind a page that stays. -/
theorem At.withStore {s : Session ω} {p : Page} (h : At holds o p s) {w : ω} (hw : holds w p.text) :
    At holds o p { s with buffer := { s.buffer with store := w } } :=
  ⟨⟨⟨hw, h.shows.cursor, h.shows.mode⟩, h.shows.index⟩, h.options⟩

theorem display_keepsPage (text : Text) : KeepsPage holds o (display text : Action ω Unit) := by
  intro s p h
  refine (display_ends text s).mono ?_ ?_
  · rintro _ _ ⟨output, -, rfl⟩
    exact h.withOutput output
  · rintro _ _ ⟨io, output, -, -, rfl⟩
    exact h.withOutput output

theorem present_keepsPage (v : Screen.Showing) : KeepsPage holds o (present v : Action ω Unit) :=
  fun _ _ h => display_keepsPage _ h

theorem building_keepsPage [Workshop ω] (tools : SparesText holds o) :
    Building (ω := ω) (KeepsPage holds o) where
  pure _ _ _ h := h
  bind hx hf _ _ h := (hx h).bind (fun a _ h => hf a h) fun _ _ h => h
  present := present_keepsPage
  appendLog tag text s p h := by
    refine (appendLog_ends h.shows.held fun path hp =>
      tools.appendLog (h.options ▸ hp) tag text h.shows.held).mono ?_ fun _ _ => False.elim
    rintro _ _ ⟨store, hw, rfl⟩
    exact h.withStore hw
  callTools s p h := by
    have hb := tools.buildAndRun h.shows.held
    rw [← h.options] at hb
    refine (callTools_ends hb).mono ?_ fun _ _ => False.elim
    rintro _ _ ⟨store, hw, rfl⟩
    exact h.withStore hw

end Pages

/-- However an action ends, the buffer shows the page that it showed before. -/
def LeavesPage (holds : ω → Text → Prop) (act : Action ω α) : Prop :=
  ∀ ⦃s : Session ω⦄ ⦃p : Page⦄, Shows holds s.buffer p →
    Ends act s (fun _ s => Shows holds s.buffer p) (fun _ s => Shows holds s.buffer p)

theorem build_leavesPage [Workshop ω] (tools : LeavesText holds) :
    LeavesPage holds (build : Action ω Unit) := by
  intro s p h
  have hb := (building_keepsPage (tools.spares s.options)).build (s := s) ⟨h, rfl⟩
  exact hb.mono (fun _ _ h' => h'.shows) fun _ _ h' => h'.shows

end Session
end LineRepl
