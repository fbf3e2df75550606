import LineRepl.Proofs.BufferSteps
import LineRepl.Proofs.Commits
import LineRepl.Proofs.Observed

/-! Programs stay closed. A session that begins with a closing brace in the last line has one there
after each line, whatever is submitted: a commit ends in a closing line, removing lines puts it back
where it is missing, and a reset restores the text that the session began with. So the tools, which
are called by commits alone, are never called but on a text that ends in the closing line. -/
namespace LineRepl

open Attempt Buffer
open Text (Closed)

/-! ## Lines on a page -/

namespace Page

variable {p : Page} {skeleton line : Text}

/-- The last line has a closing brace, and the next write inserts. -/
structure Sealed (p : Page) : Prop where
  brace : closingBrace ∈ p.text.lastPiece
  mode : p.mode = .insert
  inRange : p.InRange

theorem resealed_closed (p : Page) : p.resealed.text.Closed := ⟨_, resealed_text p⟩

theorem sealed_resealed (h : p.mode = .insert) : p.resealed.Sealed :=
  ⟨p.resealed_closed.mem_lastPiece, p.resealed_mode.trans h, p.resealed_inRange⟩

/-- Removing lines puts the brace back where there is none. -/
theorem sealed_deleted (h : p.mode = .insert) (arg : Option LineArg) : (p.deleted arg).Sealed := by
  have hm := (shortened_mode arg p).trans h
  unfold deleted
  dsimp only
  split
  · rename_i hb
    exact ⟨List.contains_iff_mem.mp hb, hm, shortened_inRange arg p⟩
  · exact sealed_resealed hm

/-- What a page becomes by what is left of a line once it is applied. -/
def performed (a : LineRepl.Action) (p : Page) : Page :=
  match a.committed? with
  | some text => p.entered text
  | none => p

/-- What a page becomes by a line. -/
def handled (skeleton line : Text) (p : Page) : Page :=
  if Statement.isStatement line then
    match Statement.parse line with
    | .error _ => p
    | .ok s => (p.applied skeleton s).performed (p.request s)
  else p.performed (.commit line)

/-- A commit closes the program, whatever stood there before. -/
theorem entered_closed (text : Text) (p : Page) : (p.entered text).text.Closed := resealed_closed _

theorem sealed_entered (text : Text) (p : Page) : (p.entered text).Sealed := sealed_resealed rfl

/-- A line keeps the brace in the last line, if the text that it may restore has one there. -/
theorem Sealed.handled (h : p.Sealed) (hs : closingBrace ∈ skeleton.lastPiece) (line : Text) :
    (p.handled skeleton line).Sealed := by
  unfold Page.handled
  split
  · split
    · exact h
    · rename_i s hp
      unfold performed request applied
      cases s.command with
      | delete => exact sealed_deleted h.mode s.arg
      | goto =>
        exact ⟨(aimed_text s.arg p).symm ▸ h.brace, (aimed_mode s.arg p).trans h.mode,
          h.inRange.aimed s.arg⟩
      | reset => exact ⟨hs, h.mode, settle_inRange _⟩
      | clearScreen => exact h
      | print => exact h
      | insert => exact sealed_entered _ _
      | replace => exact sealed_entered _ _
      | help => exact sealed_entered _ _
      | quit => exact sealed_entered _ _
  · exact sealed_entered line p

end Page

/-- The lines that commit: program text, and the commands that commit what they are given or leave. -/
def Commits (line : Text) : Prop :=
  Statement.isStatement line = false ∨
    ∃ s, Statement.parse line = .ok s ∧ s.command ∈ [.insert, .replace, .quit, .help]

/-- The line asks for help. -/
def AsksHelp (line : Text) : Prop := ∃ s, Statement.parse line = .ok s ∧ s.command = .help

theorem Page.request_commits {s : Statement}
    (h : s.command ∈ [.insert, .replace, .quit, .help]) (p : Page) :
    ∃ text, (p.request s).committed? = some text := by
  simp only [List.mem_cons, List.not_mem_nil, or_false] at h
  unfold request
  rcases h with h | h | h | h
  all_goals
    rw [h]
    exact ⟨_, rfl⟩

theorem Page.command_of_request_help {s : Statement} {p : Page} (h : p.request s = .help) :
    s.command = .help := by
  unfold request at h
  cases hc : s.command with
  | help => rfl
  | _ =>
    rw [hc] at h
    cases h

theorem Page.handled_closed {skeleton line : Text} (h : Commits line) (p : Page) :
    (p.handled skeleton line).text.Closed := by
  unfold handled
  split
  · rename_i hs
    obtain hn | ⟨s, hp, hc⟩ := h
    · rw [hs] at hn
      cases hn
    · obtain ⟨text, ht⟩ := request_commits hc p
      simp only [hp, performed, ht]
      exact entered_closed _ _
  · exact entered_closed line p

/-! ## The store that the tools find -/

namespace Observed

variable {ω : Type} {holds : ω → Text → Prop}

/-- The text is kept, and the tools have found closed texts only. -/
def Holds (holds : ω → Text → Prop) (w : Observed ω) (t : Text) : Prop :=
  holds w.inner t ∧ ∀ x ∈ w.seen, ∃ u, holds x u ∧ u.Closed

theorem Holds.next {w v : Observed ω} {t u : Text} (h : Holds holds w t) (hv : holds v.inner u)
    (hs : v.seen = w.seen) : Holds holds v u :=
  ⟨hv, hs ▸ h.2⟩

theorem keeps [Workshop ω] {fails : Text → Prop} (k : Keeps fails holds) :
    Keeps fails (Holds holds) :=
  keeps_with k fun seen => ∀ x ∈ seen, ∃ u, holds x u ∧ u.Closed

/-- The tools may be called on a closed text. -/
theorem sparesText [Workshop ω] {o : SessionOptions} (tools : SparesText holds o) :
    SparesText (fun (w : Observed ω) t => Holds holds w t ∧ t.Closed) o where
  buildAndRun {w t} h := by
    obtain ⟨⟨hw, hseen⟩, hc⟩ := h
    have hl : Holds holds { w with seen := w.seen ++ [w.inner] } t := by
      refine ⟨hw, fun x hx => ?_⟩
      rcases List.mem_append.mp hx with hx | hx
      · exact hseen x hx
      · rw [List.mem_singleton.mp hx]
        exact ⟨t, hw, hc⟩
    exact (pass_ends (tools.buildAndRun hl.1)).mono
      (fun _ _ ⟨hv, hs⟩ => ⟨hl.next hv hs, hc⟩) fun _ _ ⟨hv, hs⟩ => ⟨hl.next hv hs, hc⟩
  appendLog hp tag text _ _ h :=
    (pass_ends (tools.appendLog hp tag text h.1.1)).mono
      (fun _ _ ⟨hv, hs⟩ => ⟨h.1.next hv hs, h.2⟩) fun _ _ ⟨hv, hs⟩ => ⟨h.1.next hv hs, h.2⟩

end Observed

theorem Buffer.Shows.of_held {σ : Type} {holds holds' : σ → Text → Prop} {b : Buffer σ} {p : Page}
    (h : Shows holds b p) (h' : holds' b.store p.text) : Shows holds' b p :=
  ⟨⟨h', h.cursor, h.mode⟩, h.index⟩

/-- Closed texts stay closed when the tools leave the text alone. -/
theorem SparesText.closed {ω : Type} [Workshop ω] {holds : ω → Text → Prop} {o : SessionOptions}
    (tools : SparesText holds o) : SparesText (fun w t => holds w t ∧ t.Closed) o where
  buildAndRun h := (tools.buildAndRun h.1).mono (fun _ _ hw => ⟨hw, h.2⟩) fun _ _ hw => ⟨hw, h.2⟩
  appendLog hp tag text _ _ h :=
    (tools.appendLog hp tag text h.1).mono (fun _ _ hw => ⟨hw, h.2⟩) fun _ _ hw => ⟨hw, h.2⟩

namespace Session

/-! ## Lines in a session -/

/-- Program text is committed and does not end the session. -/
theorem handleLine_text {ω : Type} [Workshop ω] {line : Text}
    (hs : Statement.isStatement line = false) :
    (handleLine line : Action ω Flow) = (do commit line; pure .proceed) := by
  funext s
  simp only [handleLine_apply, runLine_text hs, pure_apply]
  rfl

section Statements

variable {ω : Type} [Workshop ω] {s : Session ω} {line : Text} {st : Statement}
  (hs : Statement.isStatement line = true)
include hs

/-- A refusal is shown. -/
theorem handleLine_of_error {e : CommandError} (hl : Statement.parse line = .error e) :
    handleLine line s =
      (do diagnose (DispatchError.command e).message.toList; pure Flow.proceed) s := by
  simp only [handleLine_apply, runLine_error hs hl]

/-- What a statement leaves to do is done. -/
theorem handleLine_of_run (hl : Statement.parse line = .ok st) {a : LineRepl.Action}
    {b : Buffer ω} (hr : st.run s.options.skeleton s.buffer = .ok a b) :
    handleLine line s = perform a { s with buffer := b } := by
  simp only [handleLine_apply, runLine_statement hs hl, adaptExcept_apply, hr]

/-- Over a reliable store every statement can be applied. -/
theorem handleLine_of_statement {holds : ω → Text → Prop} {p : Page} (k : Reliable holds)
    (h : Shows holds s.buffer p) (hp : p.InRange) (hl : Statement.parse line = .ok st) :
    ∃ b, st.run s.options.skeleton s.buffer = .ok (p.request st) b ∧
      Shows holds b (p.applied s.options.skeleton st) ∧
      handleLine line s = perform (p.request st) { s with buffer := b } := by
  obtain ⟨_, b, hr, rfl, hb⟩ := (run_ends k h hp s.options.skeleton st).exists_ok
    fun _ _ ⟨_, hf⟩ => hf
  exact ⟨b, hr, hb, handleLine_of_run hs hl hr⟩

end Statements

section Lines

variable {ω : Type} [Workshop ω] {holds : ω → Text → Prop} {o : SessionOptions} {s : Session ω}
  {p : Page} (k : Reliable holds) (tools : SparesText (fun w t => holds w t ∧ t.Closed) o)
include k tools

/-- A commit calls the tools on a closed text, and leaves it. -/
theorem commit_at (h : At holds o p s) (text : Text) :
    Ends (commit text) s (fun _ s' => At holds o (p.entered text) s')
      (fun _ s' => At holds o (p.entered text) s') := by
  obtain ⟨b', hr, h'⟩ := enter_shows k h.shows.toReads text
  have hb := (building_keepsPage tools).build (s := { s with buffer := b' })
    ⟨h'.of_held ⟨h'.held, p.entered_closed text⟩, h.options⟩
  rw [Ends, commit_of_enter hr]
  exact hb.mono (fun _ _ hs => ⟨hs.shows.of_held hs.shows.held.1, hs.options⟩)
    fun _ _ hs => ⟨hs.shows.of_held hs.shows.held.1, hs.options⟩

theorem finalize_at (h : At holds o p s) :
    Ends finalize s (fun _ s' => At holds o (p.entered []) s')
      (fun _ s' => At holds o (p.entered []) s') := by
  refine (commit_at k tools h []).bind ?_ fun _ _ => id
  intro _ s₁ h₁
  exact display_keepsPage _ h₁

/-- Help is shown before the last commit, so that it may end without one. -/
theorem perform_at (h : At holds o p s) (a : LineRepl.Action) :
    Ends (perform a) s (fun _ s' => At holds o (p.performed a) s')
      (fun _ s' => At holds o (p.performed a) s' ∨
        a = .help ∧ At holds o p s' ∧ s'.buffer = s.buffer) := by
  cases a with
  | done => exact h
  | commit text => exact (commit_at k tools h text).bind (fun _ _ h₁ => h₁) fun _ _ => .inl
  | clearScreen => exact (present_keepsPage _ h).bind (fun _ _ h₁ => h₁) fun _ _ => .inl
  | print lines => exact (present_keepsPage _ h).bind (fun _ _ h₁ => h₁) fun _ _ => .inl
  | help =>
    have hd := (present_keepsPage .help h).both (present_leavesBuffer .help rfl)
    refine hd.bind ?_ fun _ _ he => .inr ⟨rfl, he⟩
    intro _ s₁ h₁
    exact (finalize_at k tools h₁.1).bind (fun _ _ h₂ => h₂) fun _ _ => .inl
  | quit => exact (finalize_at k tools h).bind (fun _ _ h₁ => h₁) fun _ _ => .inl

theorem handleLine_text_at (h : At holds o p s) {line : Text}
    (hs : Statement.isStatement line = false) :
    Ends (handleLine line) s (fun _ s' => At holds o (p.entered line) s')
      fun _ s' => At holds o (p.entered line) s' := by
  rw [handleLine_text hs]
  refine (commit_at k tools h line).bind ?_ fun _ _ => id
  exact fun _ _ h₁ => h₁

/-- What a line makes of the page, however it ends, unless it asks for help in vain. -/
theorem handleLine_at (h : At holds o p s) (hp : p.InRange) (line : Text) :
    Ends (handleLine line) s
      (fun _ s' => At holds o (p.handled o.skeleton line) s')
      (fun _ s' => At holds o (p.handled o.skeleton line) s' ∨
        AsksHelp line ∧ At holds o p s' ∧ s'.buffer = s.buffer) := by
  unfold Page.handled
  cases hs : Statement.isStatement line with
  | false => exact (handleLine_text_at k tools h hs).mono (fun _ _ => id) fun _ _ => .inl
  | true =>
    obtain rfl := h.options
    cases hl : Statement.parse line with
    | error e =>
      rw [Ends, handleLine_of_error hs hl]
      exact (present_keepsPage _ h).bind (fun _ _ h₁ => h₁) fun _ _ => .inl
    | ok st =>
      obtain ⟨b', hr, h', he⟩ := handleLine_of_statement hs k h.shows hp hl
      rw [Ends, he]
      have h₁ : At holds s.options (p.applied s.options.skeleton st)
          { s with buffer := b' } := ⟨h', rfl⟩
      refine (perform_at k tools h₁ _).mono (fun _ _ => id) ?_
      intro e s' he
      refine he.imp id fun hn => ?_
      -- asking for help does nothing to the buffer before it is shown
      obtain ⟨hreq, h₂, hb⟩ := hn
      have hc := Page.command_of_request_help hreq
      have hb' : s.buffer = b' := by
        simp only [Statement.run, hc, pure_apply, EStateM.Result.ok.injEq] at hr
        exact hr.2
      have hpage : p.applied s.options.skeleton st = p := by
        simp only [Page.applied, hc]
      exact ⟨⟨st, hl, hc⟩, hpage ▸ h₂, hb.trans hb'.symm⟩

end Lines

variable {ω : Type} [Workshop ω] {holds : ω → Text → Prop} {o : SessionOptions}
  {s : Session (Observed ω)} {p : Page}

/-- What a session is after a line, also when showing something failed. -/
def after (line : Text) (s : Session ω) : Session ω :=
  match handleLine line s with
  | .ok _ s => s
  | .error _ s => s

theorem after_of_ends {P : Session ω → Prop} {line : Text} {s : Session ω}
    (h : Ends (handleLine line) s (fun _ s' => P s') (fun _ s' => P s')) : P (after line s) := by
  unfold after
  cases hr : handleLine line s with
  | ok flow s' => exact h.ok_of hr
  | error e s' => exact h.error_of hr

/-- What holds of a session that stays closed: as its last line reads, it has a brace; the next write
inserts; and the tools have never been called but on a text that ends in the closing line. -/
structure Upheld (s : Session (Observed ω)) : Prop where
  lastLine : ∃ t b, Buffer.lastLine s.buffer = .ok t b ∧ closingBrace ∈ t
  mode : s.buffer.mode = .insert
  seen : ∀ x ∈ s.buffer.store.seen, ∃ t y, TextStore.load x = .ok t y ∧ t.Closed

/-- As it reads, the text ends in the closing line. -/
def ReadsClosed (s : Session (Observed ω)) : Prop :=
  ∃ t b, Buffer.contents s.buffer = .ok t b ∧ t.Closed

/-- The page is sealed, and the text that may be restored has a brace in its last line, too. -/
structure Closing (holds : ω → Text → Prop) (o : SessionOptions) (s : Session (Observed ω)) :
    Prop where
  page : ∃ p, At (Observed.Holds holds) o p s ∧ p.Sealed
  skeleton : closingBrace ∈ o.skeleton.lastPiece

section Closing

variable (k : Reliable holds)
include k

theorem readsClosed_of_shows (h : Shows (Observed.Holds holds) s.buffer p) (hc : p.text.Closed) :
    ReadsClosed s := by
  obtain ⟨_, b, hr, rfl, -⟩ := (contents_ends (Observed.keeps k) h).exists_ok fun _ _ he => he.1
  exact ⟨_, b, hr, hc⟩

theorem Closing.upheld (h : Closing holds o s) : Upheld s := by
  obtain ⟨p, hp, hs⟩ := h.page
  obtain ⟨_, b, hr, rfl, -⟩ :=
    (lastLine_ends (Observed.keeps k).toEdits hp.shows).exists_ok fun _ _ he => he.1
  refine ⟨⟨_, b, hr, ?_⟩, hp.shows.mode.trans hs.mode, ?_⟩
  · rw [← List.contains_iff_mem, Text.contains_dropFeed (by decide), List.contains_iff_mem]
    exact hs.brace
  · intro x hx
    obtain ⟨u, hu, hc⟩ := hp.shows.held.2 x hx
    obtain ⟨_, y, hy, rfl, -⟩ := (k.load hu).exists_ok fun _ _ he => he.1
    exact ⟨_, y, hy, hc⟩

variable (tools : SparesText holds o)
include tools

/-- One line. -/
theorem handleLine_closing (h : Closing holds o s) (line : Text) :
    Ends (handleLine line) s (fun _ s' => Closing holds o s' ∧ (Commits line → ReadsClosed s'))
      (fun _ s' => Closing holds o s' ∧
        (Commits line → ReadsClosed s' ∨ AsksHelp line ∧ s'.buffer = s.buffer)) := by
  obtain ⟨p, hp, hs⟩ := h.page
  have next {s' : Session (Observed ω)}
      (h' : At (Observed.Holds holds) o (p.handled o.skeleton line) s') :
      Closing holds o s' ∧ (Commits line → ReadsClosed s') :=
    ⟨⟨⟨_, h', hs.handled h.skeleton line⟩, h.skeleton⟩,
      fun hc => readsClosed_of_shows k h'.shows (Page.handled_closed hc p)⟩
  refine (handleLine_at (Observed.keeps k) (Observed.sparesText tools) hp hs.inRange line).mono
    (fun _ _ => next) ?_
  intro e s' he
  obtain h' | ⟨hh, h', hb⟩ := he
  · obtain ⟨hcl, hr⟩ := next h'
    exact ⟨hcl, fun hc => .inl (hr hc)⟩
  · exact ⟨⟨⟨p, h', hs⟩, h.skeleton⟩, fun _ => .inr ⟨hh, hb⟩⟩

/-- Any number of lines. -/
theorem foldl_closing (h : Closing holds o s) (lines : List Text) :
    Closing holds o (lines.foldl (fun s line => after line s) s) := by
  induction lines generalizing s with
  | nil => exact h
  | cons line rest ih =>
    have hl := handleLine_closing k tools h line
    exact ih (after_of_ends (hl.mono (fun _ _ => And.left) fun _ _ => And.left))

end Closing

/-- **A session that begins closed stays closed.** When the last line of the skeleton reads with a
closing brace, then the last line has one after any lines, the mode is insert, and each call of the
tools has found a text that ends in the closing line; and so does the text after each line that
commits. Only when help cannot be shown, which ends the session, nothing is committed. -/
theorem session_stays_closed (k : Reliable holds) {options : SessionOptions}
    (tools : SparesText holds options) {w : ω} {t : Text} (hw : holds w t) (output : Sink) :
    ∃ b, withSkeleton (Observed.mk w []) options.skeleton = .ok b ∧
      ((∃ last b', Buffer.lastLine b = .ok last b' ∧ closingBrace ∈ last) →
        ∀ (lines : List Text) (line : Text),
          let s := lines.foldl (fun s line => after line s) { buffer := b, options, output }
          Upheld s ∧
          Ends (handleLine line) s (fun _ s' => Upheld s' ∧ (Commits line → ReadsClosed s'))
            (fun _ s' => Upheld s' ∧
              (Commits line → ReadsClosed s' ∨ AsksHelp line ∧ s'.buffer = s.buffer))) := by
  have hw' : Observed.Holds holds (Observed.mk w []) t := ⟨hw, by simp⟩
  obtain ⟨b, hb, h⟩ := withSkeleton_shows (Observed.keeps k) hw' id options.skeleton id
  refine ⟨b, hb, ?_⟩
  rintro ⟨last, b', hl, hbrace⟩ lines line
  have hlast := ((lastLine_ends (Observed.keeps k).toEdits h).ok_of hl).1
  have hskel : closingBrace ∈ options.skeleton.lastPiece := by
    rw [hlast, ← List.contains_iff_mem, Text.contains_dropFeed (by decide)] at hbrace
    exact List.contains_iff_mem.mp hbrace
  have hin : Page.InRange ⟨options.skeleton, max 1 (options.skeleton.feeds + 1 - 2), .insert⟩ := by
    constructor <;> simp only [Page.lineCount] <;> omega
  have h₀ : Closing holds options ({ buffer := b, options, output } : Session (Observed ω)) :=
    ⟨⟨_, ⟨h, rfl⟩, hskel, rfl, hin⟩, hskel⟩
  have h₁ := foldl_closing k tools h₀ lines
  refine ⟨h₁.upheld k, (handleLine_closing k tools h₁ line).mono ?_ ?_⟩
  · exact fun _ _ he => ⟨he.1.upheld k, he.2⟩
  · exact fun _ _ he => ⟨he.1.upheld k, he.2⟩

/-- A block whose braces stand in lines of their own. -/
def block : SessionOptions where
  source := "main.cpp"
  skeleton := "int main()\n\x7b\n\n\x7d\n".toList

/-- A session over a text in memory: its closing line is removed, then replaced, then the text is
restored, and the screen is full before it is left. -/
theorem session_stays_closed_block :
    ∃ b, withSkeleton (Observed.mk (rehearsed "old".toList 1 .insert).buffer.store [])
        block.skeleton = .ok b ∧
      (∃ last b', Buffer.lastLine b = .ok last b' ∧ closingBrace ∈ last) ∧
      Upheld (["$del 4".toList, "$rep 4 x;".toList, "$reset".toList, "$quit".toList].foldl
        (fun s line => after line s)
        { buffer := b, options := block, output := { room := some 20 } }) := by
  have hw : Rehearsal.Holds (rehearsed "old".toList 1 .insert).buffer.store "old".toList :=
    ⟨rfl, rfl⟩
  obtain ⟨b, hb, h⟩ := session_stays_closed Rehearsal.reliable (Rehearsal.leavesText.spares block)
    hw { room := some 20 }
  have hlast : ∃ last b', Buffer.lastLine b = .ok last b' ∧ closingBrace ∈ last := by
    obtain rfl := Except.ok.inj (hb.symm.trans rfl)
    exact ⟨_, _, rfl, by decide⟩
  exact ⟨b, hb, hlast, (h hlast _ []).1⟩

end Session
end LineRepl
