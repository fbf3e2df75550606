import LineRepl.Proofs.Commits
import LineRepl.Proofs.FreshRows
import LineRepl.Proofs.Outlooks

/-! Reports on the screen and in the log. Of each report both get the same texts in the same order, but
not by the same rules: the screen leaves out what is empty, the log what is blank, and only the screen
is told the exit status. What an action shows and logs is carried together, so that a run of commits
adds up what its reports show and log, one after the other. -/
namespace LineRepl

open Attempt Buffer

/-! ## What a report amounts to -/

namespace RunReport

/-- What is shown of a report. -/
def shown (colour : Bool) (r : RunReport) : Text :=
  r.build.stderr.ended ++ match r.run with
    | none => []
    | some run => Text.ended (run.stdout ++ run.stderr) ++
      if run.exitCode = 0 then []
      else Screen.warning colour ("program exited with status " ++ toString run.exitCode)

/-- What is logged of a report. -/
def entries (r : RunReport) : List (LogTag × Text) :=
  Journal.kept .error r.build.stderr ++ match r.run with
    | none => []
    | some run => Journal.kept .output (run.stdout ++ run.stderr)

end RunReport

theorem Screen.passage_eq (t : Text) : passage t = t.ended := by
  unfold passage Text.ended
  simp only [Bool.or_eq_true, List.isEmpty_iff, beq_iff_eq]

/-! ## What an action shows and logs -/

namespace Outlook

variable {ω : Type} (v : Outlook ω)

/-- The session is at a page, and what it shows is taken. -/
structure Ready (o : SessionOptions) (p : Page) (reports : List RunReport) (log : Journal.Record)
    (s : Session ω) : Prop extends Session.At (v.Sees reports log) o p s where
  unfailing : s.output.Unfailing

/-- From `s` to `s'` this was shown, and these entries came behind `log`. -/
structure Reported (o : SessionOptions) (log : Journal.Record) (shown : Text)
    (entries : List (LogTag × Text)) (p : Page) (reports : List RunReport) (s s' : Session ω) :
    Prop where
  shown : s.output.Adds shown s'.output
  logged : ∃ lines, Journal.Dated entries lines ∧
    v.Ready o p reports (log.grown lines) s'

/-- Whenever the session is ready, the action shows and logs this, and the session is ready again. -/
def Reports (o : SessionOptions) (act : Session.Action ω Unit) (shown : Text)
    (entries : List (LogTag × Text)) : Prop :=
  ∀ ⦃p reports log s⦄, v.Ready o p reports log s →
    ∃ s', act s = .ok () s' ∧ v.Reported o log shown entries p reports s s'

variable {v} {o : SessionOptions} {p p' : Page} {reports reports' : List RunReport}
  {log : Journal.Record} {s s₁ s₂ : Session ω} {shown more : Text}
  {entries others : List (LogTag × Text)}

theorem Reported.nothing (h : v.Ready o p reports log s) :
    v.Reported o log [] [] p reports s s :=
  ⟨.nothing _, [], .nil, h⟩

/-- What is shown and logged adds up. -/
theorem Reported.andThen (h : v.Reported o log shown entries p reports s s₁)
    {act : Session.Action ω Unit}
    (ha : ∀ ⦃log₁⦄, v.Ready o p reports log₁ s₁ →
      ∃ s₂, act s₁ = .ok () s₂ ∧ v.Reported o log₁ more others p' reports' s₁ s₂) :
    ∃ s₂, act s₁ = .ok () s₂ ∧
      v.Reported o log (shown ++ more) (entries ++ others) p' reports' s s₂ := by
  obtain ⟨hs, lines, hl, hr⟩ := h
  obtain ⟨s₂, hact, hs', lines', hl', hr'⟩ := ha hr
  refine ⟨s₂, hact, hs.trans hs', lines ++ lines', hl.append hl', ?_⟩
  rwa [Journal.Record.grown_grown] at hr'

theorem Reports.pure : v.Reports o (Pure.pure ()) [] [] := fun _ _ _ s h => ⟨s, rfl, .nothing h⟩

theorem Reports.bind {x : Session.Action ω Unit} {f : Unit → Session.Action ω Unit}
    (hx : v.Reports o x shown entries) (hf : ∀ u, v.Reports o (f u) more others) :
    v.Reports o (x >>= f) (shown ++ more) (entries ++ others) := by
  intro p reports log s h
  obtain ⟨s₁, hr, h₁⟩ := hx h
  rw [bind_apply, hr]
  exact h₁.andThen fun _ hready => hf () hready

end Outlook

/-! ## Commits and their reports -/

namespace Session

variable {ω : Type} {v : Outlook ω} {o : SessionOptions}

/-- What is shown in the colour setting of the session. -/
theorem present_reports (page : Screen.Showing) :
    v.Reports o (present page) (page.page o.colour) [] := by
  intro p reports log s h
  obtain rfl := h.options
  obtain ⟨output, hp, ho⟩ := h.unfailing.print (page.page s.options.colour)
  refine ⟨{ s with output }, ?_, Sink.written_of_print hp, [], .nil, h.withOutput output, ho⟩
  rw [present_apply, display_apply, hp]

theorem passage_reports {page : Screen.Showing} {text : Text}
    (h : ∀ colour, page.page colour = Screen.passage text) :
    v.Reports o (present page) text.ended [] := by
  rw [← Screen.passage_eq, ← h o.colour]
  exact present_reports page

section Commits

/-- One commit after the other. -/
def commits [Workshop ω] : List Text → Action ω Unit
  | [] => pure ()
  | text :: rest => do
    commit text
    commits rest

variable [Workshop ω] (law : v.Lawful o.source) (hlog : o.log = some v.path)
include law hlog

theorem log_reports (tag : LogTag) (text : Text) :
    v.Reports o (log tag text) [] (Journal.kept tag text) := by
  intro p reports before s h
  obtain ⟨hheld, hfile⟩ := h.shows.held
  obtain ⟨secs, hends⟩ := law.appendLog tag text hheld
  obtain ⟨t', lines, ha, hl, hfile'⟩ := hfile.adds secs tag text
  obtain ⟨_, w, hw, hheld', ht⟩ := hends.exists_ok fun e w he => nomatch he.symm.trans ha
  obtain ⟨-, rfl⟩ := EStateM.Result.ok.inj (ht.symm.trans ha)
  have hpath : s.options.log = some v.path := h.options ▸ hlog
  refine ⟨{ s with buffer := { s.buffer with store := w } }, ?_, .nothing _, lines, hl, ?_⟩
  · rw [Session.log, bind_apply, appendLog_apply, hpath]
    simp only [hw, pure_apply]
  · have hs := h.shows
    exact ⟨⟨⟨⟨⟨hheld', hfile'⟩, hs.cursor, hs.mode⟩, hs.index⟩, h.options⟩, h.unfailing⟩

/-- The texts of a run are taken together, and its status is shown only when it tells of a failure. -/
theorem reportRun_reports (run : ExecOutput) :
    v.Reports o (reportRun run)
      (Text.ended (run.stdout ++ run.stderr) ++
        if run.exitCode = 0 then []
        else Screen.warning o.colour ("program exited with status " ++ toString run.exitCode))
      (Journal.kept .output (run.stdout ++ run.stderr)) := by
  have hstatus : v.Reports o
      (unless run.success do
        present (.warning ("program exited with status " ++ toString run.exitCode)))
      (if run.exitCode = 0 then []
        else Screen.warning o.colour ("program exited with status " ++ toString run.exitCode)) [] := by
    by_cases hx : run.exitCode = 0
    · have hsuccess : run.success = true := beq_iff_eq.mpr hx
      rw [if_pos hx, if_pos hsuccess]
      exact .pure
    · have hsuccess : ¬ run.success = true := fun hs => hx (beq_iff_eq.mp hs)
      rw [if_neg hx, if_neg hsuccess]
      exact present_reports _
  have hlogged := log_reports law hlog .output (run.stdout ++ run.stderr)
  have hpassage : v.Reports o (present (.programOutput (run.stdout ++ run.stderr)))
      (Text.ended (run.stdout ++ run.stderr)) [] := passage_reports fun _ => rfl
  have hall := hpassage.bind fun _ => hlogged.bind fun _ => hstatus
  rw [List.nil_append, List.nil_append, List.append_nil] at hall
  exact hall

theorem report_reports (r : RunReport) : v.Reports o (report r) (r.shown o.colour) r.entries := by
  have hpassage : v.Reports o (present (.buildErrors r.build.stderr)) r.build.stderr.ended [] :=
    passage_reports fun _ => rfl
  have hlogged := log_reports law hlog .error r.build.stderr
  unfold report RunReport.shown RunReport.entries
  cases r.run with
  | none => exact hpassage.bind fun _ => hlogged.bind fun _ => .pure
  | some run => exact hpassage.bind fun _ => hlogged.bind fun _ => reportRun_reports law hlog run

/-- A commit is answered by the next report. -/
theorem commit_reports {p : Page} {r : RunReport} {reports : List RunReport} {before : Journal.Record}
    {s : Session ω} (h : v.Ready o p (r :: reports) before s) (text : Text)
    (hfits : ∀ q ∈ p.passed [text], Bears v.fails q) :
    ∃ s', commit text s = .ok () s' ∧
      v.Reported o before (r.shown o.colour) r.entries (p.entered text) reports s s' := by
  obtain rfl := h.options
  obtain ⟨b, he, hb⟩ := enter_bears (law.store (r :: reports) before) h.shows.toReads text hfits
  obtain ⟨w, hw, hsees⟩ := law.buildAndRun hb.held
  have hready : v.Ready s.options (p.entered text) reports before
      { s with buffer := { b with store := w } } :=
    ⟨⟨⟨⟨hsees, hb.cursor, hb.mode⟩, hb.index⟩, rfl⟩, h.unfailing⟩
  obtain ⟨s', hr, hreported⟩ := report_reports law hlog r hready
  refine ⟨s', ?_, hreported.shown, hreported.logged⟩
  rw [commit_of_enter he, build_apply]
  simp only [hw, hr]

theorem commits_reported {reports : List RunReport} {texts : List Text}
    (hlen : texts.length = reports.length) {p : Page} {before : Journal.Record} {s : Session ω}
    (h : v.Ready o p reports before s) (hfits : ∀ q ∈ p.passed texts, Bears v.fails q) :
    ∃ s', commits texts s = .ok () s' ∧
      v.Reported o before (reports.flatMap (RunReport.shown o.colour))
        (reports.flatMap RunReport.entries) (texts.foldl (fun p text => p.entered text) p) []
        s s' := by
  induction texts generalizing reports p before s with
  | nil =>
    obtain rfl : reports = [] := List.length_eq_zero_iff.mp hlen.symm
    exact ⟨s, rfl, .nothing h⟩
  | cons text rest ih =>
    obtain ⟨r, others, rfl⟩ := List.exists_cons_of_length_eq_add_one hlen.symm
    have hlen' : rest.length = others.length := Nat.succ.inj hlen
    have hone : ∀ q ∈ p.passed [text], Bears v.fails q :=
      fun q hq => hfits q (Page.passed_one_subset text rest p hq)
    have hrest : ∀ q ∈ (p.entered text).passed rest, Bears v.fails q :=
      fun q hq => hfits q (List.mem_cons_of_mem _ (List.mem_cons_of_mem _ hq))
    obtain ⟨s₁, hr, h₁⟩ := commit_reports law hlog h text hone
    rw [commits, bind_apply, hr]
    exact h₁.andThen fun _ hready => ih hlen' hready hrest

end Commits

/-- A program that is not built. -/
def unbuilt : RunReport := { build := { exitCode := 1, stderr := "oops".toList } }

/-- A program that fails, the last of whose texts is blank. -/
def halted : RunReport :=
  { run := some { exitCode := 3, stdout := "hi".toList, stderr := " \n".toList } }

/-- A session that logs, and whose programs come to this. -/
def logging : Session Rehearsal where
  buffer :=
    { store :=
        { place := { inner := ⟨⟨[], []⟩, .memory closingLine⟩, schedule := FaultyStore.never }
          answers := fun n => .ok (if n = 0 then unbuilt else halted) }
      index := LineIndex.scan closingLine }
  options := { block with log := some "log.txt" }

theorem logging_ready :
    (Rehearsal.outlook "log.txt").Ready logging.options ⟨closingLine, 1, .insert⟩ [unbuilt, halted]
      ⟨[], .error (.os .noEntry)⟩ logging := by
  have hlays : Rehearsal.Lays [unbuilt, halted] logging.buffer.store.answers [] := by
    intro i r hr
    match i with
    | 0 =>
      cases hr
      rfl
    | 1 =>
      cases hr
      rfl
    | i + 2 => cases hr
  have hfile : Journal.Holds "log.txt" logging.buffer.store.place.inner.tree
      ⟨[], .error (.os .noEntry)⟩ :=
    ⟨⟨_, none, rfl, ⟨["log.txt".toList], false, rfl, rfl⟩, rfl⟩, rfl⟩
  exact ⟨⟨⟨⟨⟨⟨⟨rfl, rfl⟩, hlays⟩, hfile⟩, rfl, rfl⟩, rfl⟩, rfl⟩, ⟨rfl, fun _ => rfl⟩⟩

/-- A source file and two tools. -/
def stocked : FileTree where
  current := []
  nodes :=
    [(["main.cpp".toList], .file closingLine.utf8 false), (["bin".toList], .directory),
      (["bin".toList, "true".toList], .file [] true), (["bin".toList, "env".toList], .file [] true)]

/-- A session over that source file, which logs to a directory that is not there yet. -/
def filed : Session Workplace where
  buffer :=
    { store :=
        { store := { tree := stocked, path := "main.cpp" }
          env := { vars := [("CXX".toList, "cc".toList)], accountHome := "/" }
          compiler := { command := "/bin/true".toList }
          program := "/bin/env" }
      index := LineIndex.scan closingLine }
  options := { block with log := some "out/log.txt" }

/-- The log does not go to any file of the tree. -/
theorem stocked_avoids {place : List Text} (h : place ≠ ["out".toList, "log.txt".toList]) :
    Journal.Avoids "out/log.txt" place stocked := by
  have habove : Journal.makeAbove "out/log.txt" stocked =
      .ok () (stocked.put ["out".toList] .directory) := rfl
  have hpath : (stocked.put ["out".toList] .directory).locate "out/log.txt" =
      .ok ["out".toList, "log.txt".toList] := rfl
  intro t hm
  obtain ⟨-, rfl⟩ := EStateM.Result.ok.inj (habove.symm.trans hm)
  rw [hpath]
  exact fun hl => h (Except.ok.inj hl).symm

theorem filed_ready :
    (Workplace.outlook "main.cpp" "out/log.txt" (Workplace.Listing "main.cpp" "out/log.txt")).Ready
      filed.options ⟨closingLine, 1, .insert⟩
      [filed.buffer.store.listing, filed.buffer.store.listing] ⟨[], .error (.os .noEntry)⟩ filed := by
  have hplace : stocked.locate "main.cpp" = .ok ["main.cpp".toList] := rfl
  have hsource : FileStore.Apart "main.cpp" "out/log.txt" filed.buffer.store.store :=
    ⟨rfl, _, closingLine.utf8, false, hplace, rfl, stocked_avoids (by decide)⟩
  have htrue : Workplace.Stands "main.cpp" "out/log.txt" "true" stocked :=
    ⟨⟨rfl, rfl, stocked_avoids (by decide)⟩, by rw [hplace]; decide⟩
  have henv : Workplace.Stands "main.cpp" "out/log.txt" "env" stocked :=
    ⟨⟨rfl, rfl, stocked_avoids (by decide)⟩, by rw [hplace]; decide⟩
  have hlists : Workplace.Lists "main.cpp" [filed.buffer.store.listing, filed.buffer.store.listing]
      filed.buffer.store := by
    refine ⟨rfl, rfl, rfl, fun r hr => ?_⟩
    simpa using hr
  have hlog : Journal.Holds "out/log.txt" stocked ⟨[], .error (.os .noEntry)⟩ :=
    ⟨⟨_, none, rfl, ⟨["out".toList, "log.txt".toList], false, rfl, rfl⟩, rfl⟩, rfl⟩
  exact ⟨⟨⟨⟨⟨⟨⟨⟨rfl, rfl⟩, hsource⟩, ⟨hsource, htrue, henv⟩, hlists⟩, hlog⟩, rfl, rfl⟩, rfl⟩, rfl⟩,
    ⟨rfl, fun _ => rfl⟩⟩

end Session
end LineRepl
