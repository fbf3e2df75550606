import LineRepl.Proofs.FilesApart
import LineRepl.Proofs.SessionInvariants
import LineRepl.Proofs.ToolCalls

/-! Surroundings in which nothing fails but the program. The text is where the store keeps it, the tools
give their reports, and what is logged goes to a file of which neither of them knows. A rehearsal is of
this kind, and so is a workplace, whose program text and log are two files of one tree. -/
namespace LineRepl

open Attempt

/-- What is known of surroundings: which text is in the store while the tools have these reports still
to give, on which texts a call of the store may fail, and where in which tree the log is. -/
structure Outlook (ω : Type) where
  holds : List RunReport → ω → Text → Prop
  fails : Text → Prop := fun _ => False
  tree : ω → FileTree
  path : Path

namespace Outlook

variable {ω : Type} (v : Outlook ω)

/-- The text is in the store, the reports are still to come, and the log holds this. -/
def Sees (reports : List RunReport) (log : Journal.Record) (w : ω) (t : Text) : Prop :=
  v.holds reports w t ∧ Journal.Holds v.path (v.tree w) log

/-- The store fails on no other texts, store and tools leave the log alone, and what is logged is
written as a journal writes it. -/
structure Lawful [Workshop ω] (source : Path) : Prop where
  store (reports : List RunReport) (log : Journal.Record) : Keeps v.fails (v.Sees reports log)
  /-- The tools give the next report. -/
  buildAndRun {r : RunReport} {reports : List RunReport} {log : Journal.Record} {w : ω} {t : Text} :
    v.Sees (r :: reports) log w t →
      ∃ w', Workshop.buildAndRun source w = .ok r w' ∧ v.Sees reports log w' t
  /-- At whatever time it is. -/
  appendLog {reports : List RunReport} {w : ω} {t : Text} (tag : LogTag) (text : Text) :
    v.holds reports w t → ∃ secs, Ends (Workshop.appendLog v.path tag text) w
      (fun _ w' => v.holds reports w' t ∧
        Journal.append v.path secs tag text (v.tree w) = .ok () (v.tree w'))
      fun e w' => Journal.append v.path secs tag text (v.tree w) = .error e (v.tree w')

end Outlook

/-! ## Rehearsals -/

namespace Place

/-- A text in memory leaves the tree of files alone. -/
theorem memory_stable (I : FileTree → Prop) :
    Stable fun p : Place => (∃ u, p.keeping = .memory u) ∧ I p.tree := by
  have hcall {α : Type} {inMemory : EStateM IoError MemoryStore α}
      {onDisk : EStateM IoError FileStore α} {p : Place}
      (h : (∃ u, p.keeping = .memory u) ∧ I p.tree) :
      Ends (call inMemory onDisk) p (fun _ q => (∃ u, q.keeping = .memory u) ∧ I q.tree)
        fun _ q => (∃ u, q.keeping = .memory u) ∧ I q.tree := by
    obtain ⟨⟨u, hu⟩, hI⟩ := h
    unfold Ends call
    rw [hu]
    dsimp only
    cases inMemory ⟨u⟩ <;> exact ⟨⟨_, rfl⟩, hI⟩
  exact ⟨hcall, fun _ => hcall, fun _ => hcall, fun _ => hcall, fun _ => hcall⟩

end Place

namespace FaultyStore

variable {σ : Type} [TextStore σ] {I : σ → Prop}

theorem stable (st : Stable I) : Stable fun s : FaultyStore σ => I s.inner where
  load h := attempt_leaves (st.load h) h
  replace t h := attempt_leaves (st.replace t h) h
  append t h := attempt_leaves (st.append t h) h
  truncate size h := attempt_leaves (st.truncate size h) h
  readLineAt offset h := attempt_leaves (st.readLineAt offset h) h

end FaultyStore

namespace Rehearsal

/-- The calls of the store are no calls of the tools. -/
theorem stable {I : FaultyStore Place → Prop} (st : Stable I)
    (J : (Nat → Except ToolchainError RunReport) → List Path → Prop) :
    Stable fun r : Rehearsal => I r.place ∧ J r.answers r.calls :=
  (wraps.stable st).and (wraps.stable_rest fun _ _ h => h)

/-- These reports are laid down for the next calls of the tools. -/
def Lays (reports : List RunReport) (answers : Nat → Except ToolchainError RunReport)
    (calls : List Path) : Prop :=
  ∀ i r, reports[i]? = some r → answers (calls.length + i) = .ok r

/-- A rehearsal over a text in memory, with its log in the tree of files. -/
def outlook (path : Path) : Outlook Rehearsal where
  holds reports r t := Holds r t ∧ Lays reports r.answers r.calls
  tree r := r.place.inner.tree
  path := path

theorem outlook_lawful (path source : Path) : (outlook path).Lawful source where
  store reports log := by
    have k := reliable.with_stable (stable
      (FaultyStore.stable (Place.memory_stable fun tree => Journal.Holds path tree log))
      (Lays reports))
    refine k.of_iff fun r t => ⟨?_, ?_⟩
    · exact fun ⟨ht, ⟨_, hfile⟩, hlays⟩ => ⟨⟨ht, hlays⟩, hfile⟩
    · exact fun ⟨⟨ht, hlays⟩, hfile⟩ => ⟨ht, ⟨⟨t, ht.2⟩, hfile⟩, hlays⟩
  buildAndRun {r reports log w t} h := by
    obtain ⟨⟨ht, hlays⟩, hfile⟩ := h
    have hnext : w.answers w.calls.length = .ok r := hlays 0 r rfl
    refine ⟨{ w with calls := w.calls ++ [source] }, ?_, ⟨ht, fun i r' hr' => ?_⟩, hfile⟩
    · show Rehearsal.buildAndRun source w = _
      simp only [Rehearsal.buildAndRun, hnext]
    · rw [← hlays (i + 1) r' hr', List.length_append, List.length_singleton, Nat.add_assoc,
        Nat.add_comm 1 i]
  appendLog {reports w t} tag text h := by
    refine ⟨w.secs, ?_⟩
    show Ends (Rehearsal.appendLog path tag text) _ _ _
    rw [Ends, Rehearsal.appendLog, onTree, within_apply]
    dsimp only [outlook]
    cases Journal.append path w.secs tag text w.place.inner.tree with
    | ok _ tree => exact ⟨h, rfl⟩
    | error e tree => rfl

end Rehearsal

/-! ## Workplaces -/

namespace Workplace

variable {source path : Path} {w : Workplace} {gives : List RunReport → Workplace → Prop}

/-- The text is in the source file, and the log, which is another file, holds this. -/
structure HasFiles (source path : Path) (log : Journal.Record) (w : Workplace) (t : Text) : Prop where
  text : FileStore.Holds source w.store t
  apart : FileStore.Apart source path w.store
  logged : Journal.Holds path w.store.tree log

/-- Tools that give their reports and write to neither of the two files. -/
structure Steady (source path : Path) (gives : List RunReport → Workplace → Prop) : Prop where
  stable (reports : List RunReport) : Stable (gives reports)
  buildAndRun {r : RunReport} {reports : List RunReport} {log : Journal.Record} {w : Workplace}
    {t : Text} : gives (r :: reports) w → HasFiles source path log w t →
      ∃ w', buildAndRun source w = .ok r w' ∧ gives reports w' ∧ HasFiles source path log w' t
  appendLog {reports : List RunReport} {w : Workplace} (tag : LogTag) (text : Text) :
    gives reports w →
      Ends (appendLog path tag text) w (fun _ w' => gives reports w') fun _ _ => True

/-- A workplace with such tools. Its store fails on texts that are too large for a file. -/
def outlook (source path : Path) (gives : List RunReport → Workplace → Prop) : Outlook Workplace where
  holds reports w t :=
    (FileStore.Holds source w.store t ∧ FileStore.Apart source path w.store) ∧ gives reports w
  fails := FileStore.TooLarge
  tree w := w.store.tree
  path := path

theorem onTree_apply {ε α : Type} (act : EStateM ε FileTree α) (w : Workplace) :
    onTree act w = match act w.store.tree with
      | .ok a tree => .ok a { w with store := { w.store with tree } }
      | .error e tree => .error e { w with store := { w.store with tree } } := by
  rw [onTree, onStore, within_apply, within_apply]
  cases act w.store.tree <;> rfl

theorem outlook_lawful (tools : Steady source path gives) :
    (outlook source path gives).Lawful source where
  store reports log := by
    have k := (wraps.keeps ((FileStore.keeps source).with_stable
      (FileStore.log_outOfReach source path log).stable)).with_stable (tools.stable reports)
    refine k.of_iff fun w t => ⟨?_, ?_⟩
    · exact fun ⟨⟨ht, ha, hl⟩, hg⟩ => ⟨⟨⟨ht, ha⟩, hg⟩, hl⟩
    · exact fun ⟨⟨⟨ht, ha⟩, hg⟩, hl⟩ => ⟨⟨ht, ha, hl⟩, hg⟩
  buildAndRun {r reports log w t} h := by
    obtain ⟨⟨⟨ht, ha⟩, hg⟩, hl⟩ := h
    obtain ⟨w', hr, hg', hfiles⟩ := tools.buildAndRun hg ⟨ht, ha, hl⟩
    exact ⟨w', hr, ⟨⟨hfiles.text, hfiles.apart⟩, hg'⟩, hfiles.logged⟩
  appendLog {reports w t} tag text h := by
    obtain ⟨⟨ht, ha⟩, hg⟩ := h
    have hgives := tools.appendLog tag text hg
    have hfiles := ha.append w.secs tag text
    have happly : Workplace.appendLog path tag text w = _ := onTree_apply _ w
    refine ⟨w.secs, ?_⟩
    show Ends (Workplace.appendLog path tag text) w _ _
    unfold Ends at hgives ⊢
    rw [happly] at hgives ⊢
    cases hr : Journal.append path w.secs tag text w.store.tree with
    | ok _ tree =>
      rw [hr] at hgives
      obtain ⟨ha', -, hbytes⟩ := hfiles.ok_of hr
      exact ⟨⟨⟨⟨ht.1, hbytes.trans ht.2⟩, ha'⟩, hgives⟩, hr⟩
    | error e tree => exact hr

/-! ### Tools of the system -/

/-- The tool of this name is at its place, where neither the source file is nor the log goes. -/
def Stands (source path : Path) (name : Text) (t : FileTree) : Prop :=
  Journal.Spares path ⟨"/bin/" ++ name⟩ ["bin".toList, name] (.file [] true) t ∧
    t.locate source ≠ .ok ["bin".toList, name]

/-- What comes of a program that lists its environment. -/
def listing (w : Workplace) : RunReport :=
  { run := some { stdout := Bytes.lossyText (Shell.bytesOf (Shell.listed w.env)) } }

/-- The compiler is a tool that accepts everything, and the program one that lists its environment. -/
structure Lists (source : Path) (reports : List RunReport) (w : Workplace) : Prop where
  command : w.compiler.command = "/bin/true".toList
  program : w.program = "/bin/env"
  plain : (w.compiler.arguments w.program source).any (·.contains '\x00') = false
  reports : ∀ r ∈ reports, r = w.listing

/-- With these tools a workplace gives its listing whenever it is asked. -/
def Listing (source path : Path) (reports : List RunReport) (w : Workplace) : Prop :=
  (FileStore.Apart source path w.store ∧
    Stands source path "true" w.store.tree ∧ Stands source path "env" w.store.tree) ∧
      Lists source reports w

theorem call_of_some {env : Environment} {program : Text} {args : List Text} {output : ExecOutput}
    {tree : FileTree} (secs : Nat) (h : Shell.call env program args tree = .ok (some output) tree) :
    call env secs program args tree = .ok output tree := by
  rw [call, h]
  rfl

theorem Listing.buildAndRun {r : RunReport} {reports : List RunReport}
    (h : Listing source path (r :: reports) w) : buildAndRun source w = .ok r w := by
  obtain ⟨⟨-, ⟨htrue, -⟩, henv, -⟩, hl⟩ := h
  have hbuild := call_of_some w.compiler.timeoutSecs
    (Shell.call_true w.env hl.plain htrue.located htrue.node)
  have hrun := call_of_some w.compiler.timeoutSecs
    (Shell.call_env w.env henv.located henv.node)
  rw [← hl.command] at hbuild
  have hprogram : w.program.text = "/bin/env".toList := congrArg Path.text hl.program
  rw [← hprogram] at hrun
  have hsuccess : ExecOutput.success {} = true := rfl
  obtain rfl : r = w.listing := hl.reports r List.mem_cons_self
  rw [Workplace.buildAndRun, onTree_apply]
  simp only [bind_apply, hbuild, hsuccess, if_true, hrun, pure_apply]
  rfl

theorem listing_steady (source path : Path) : Steady source path (Listing source path) where
  stable reports :=
    (wraps.stable ((FileStore.file_outOfReach source path _ _ _).and
      (FileStore.file_outOfReach source path _ _ _)).stable).and
        (wraps.stable_rest fun _ _ h => ⟨h.command, h.program, h.plain, h.reports⟩)
  buildAndRun {r reports log w t} hg hfiles := by
    refine ⟨w, hg.buildAndRun, ⟨hg.1, ?_⟩, hfiles⟩
    exact ⟨hg.2.command, hg.2.program, hg.2.plain, fun r hr => hg.2.reports r (.tail _ hr)⟩
  appendLog {reports w} tag text h := by
    obtain ⟨⟨ha, ⟨htrue, hother⟩, henv, hother'⟩, hl⟩ := h
    have happly : Workplace.appendLog path tag text w = _ := onTree_apply _ w
    unfold Ends
    rw [happly]
    cases hr : Journal.append path w.secs tag text w.store.tree with
    | error e tree => trivial
    | ok _ tree =>
      obtain ⟨ha', hplace, -⟩ := (ha.append w.secs tag text).ok_of hr
      have htrue' := (htrue.append w.secs tag text).ok_of hr
      have henv' := (henv.append w.secs tag text).ok_of hr
      exact ⟨⟨ha', ⟨htrue', hplace ▸ hother⟩, henv', hplace ▸ hother'⟩, hl.command, hl.program,
        hl.plain, hl.reports⟩

end Workplace
end LineRepl
