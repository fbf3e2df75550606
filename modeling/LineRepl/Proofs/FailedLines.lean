import LineRepl.Proofs.ClosedPages
import LineRepl.Proofs.RefusedLoads
import LineRepl.Proofs.SessionPages

/-! What a line leaves behind when it fails. Nothing is changed by a malformed command, or by one that
changes nothing in the first place. Every other line has a store call that can be refused when the
text, the cursor or the mode is changed already: most often the scan that follows an edit. -/
namespace LineRepl

open Attempt Buffer
open FaultyStore (Fused)

/-- What a line does to the buffer: it is applied, and what it asks for is committed. -/
def Buffer.submit {σ : Type} [TextStore σ] (skeleton line : Text) :
    EStateM DispatchError (Buffer σ) Unit := do
  let action ← runLine skeleton line
  if let some text := action.committed? then (Session.enter text).adaptExcept .buffer

/-- If the statement fails on a page, then before it has changed anything. -/
def Statement.Harmless (skeleton : Text) (s : Statement) (p : Page) : Prop :=
  match s.command with
  | .goto | .clearScreen | .print => True
  | .reset => p.text = skeleton
  | .delete => p.Lacks (deletion p.cursor s.arg).1 ∧ closingBrace ∈ p.text.lastPiece
  | .insert | .replace | .help | .quit => False

/-- If the line fails on a page, then before it has changed anything. All that is committed can fail
later. -/
def Harmless (skeleton line : Text) (p : Page) : Prop :=
  Statement.isStatement line = true ∧ ∀ s, Statement.parse line = .ok s → s.Harmless skeleton p

/-! ## Pages that change and pages that do not -/

namespace Page

variable {p r : Page} {start : Nat}

/-- Removing a line that is there changes the text. -/
theorem without_ne (h1 : 1 ≤ start) (hl : start ≤ p.text.pieces.length) (size : Nat) :
    p.without start size ≠ p := by
  intro e
  have ht := congrArg Page.text e
  rw [without_of_pos h1] at ht
  have hrest : p.text.rest (start + size) = p.text.rest (start - 1) :=
    List.append_cancel_left (ht.trans (Text.lead_append_rest (start - 1) p.text).symm)
  have hlen := congrArg (fun t => (Text.pieces t).length) hrest
  simp only [Text.pieces_rest, List.length_drop] at hlen
  omega

/-- Closing a page whose last line has no brace changes the text. -/
theorem closed_ne (h : closingBrace ∉ p.text.lastPiece) :
    (p.erased closingBrace).settle.appended closingLine ≠ p := by
  intro e
  have ht := congrArg Page.text e
  exact h (Text.Closed.mem_lastPiece ⟨_, ht.symm⟩)

/-- A write changes the text, or it ends replace mode. -/
theorem written_ne (ht : r.text = p.text) (hm : r.mode = p.mode ∨ r.mode = .insert) (t : Text) :
    r.written (t ++ ['\n']) ≠ p := by
  intro e
  cases hr : r.mode with
  | insert =>
    have hw := (congrArg Page.text e).symm.trans (written_insert_text _ hr)
    have hsplit := Text.lead_append_rest (r.cursor - 1) r.text
    have hl := congrArg List.length hw
    have hl' := congrArg List.length hsplit
    simp only [List.length_append, List.length_singleton, ht] at hl hl'
    omega
  | replace =>
    have hp : p.mode = .replace := by
      rcases hm with hm | hm
      · exact hm.symm.trans hr
      · rw [hr] at hm
        cases hm
    have hw : WriteMode.insert = p.mode := congrArg Page.mode e
    rw [hp] at hw
    cases hw

end Page

/-! ## What harmless lines leave -/

namespace Buffer

section Harmless

variable {σ : Type} [TextStore σ] {fails : Text → Prop} {holds : σ → Text → Prop} {b : Buffer σ}
  {p : Page} {skeleton line : Text}

theorem runDelete_harmless (k : Keeps fails holds) (h : Shows holds b p) (hp : p.InRange)
    {arg : Option LineArg} (hn : p.Lacks (Statement.deletion p.cursor arg).1)
    (hl : closingBrace ∈ p.text.lastPiece) :
    Ends (Statement.runDelete arg) b (fun _ _ => True) fun _ b' => Reads holds b' p := by
  refine Ends.get_bind ?_
  rw [h.cursor]
  refine (deleteLines_ends k h hp (Statement.deletion p.cursor arg).1 _).bind ?_ ?_
  · intro _ b₁ h₁
    rw [hn.without_eq, hp.settle_eq] at h₁
    have h₂ := h₁.2.setCursor (Statement.deletion p.cursor arg).1
    rw [hn.setCursor_eq] at h₂
    refine Ends.modify_bind ((lastLine_ends k.toEdits h₂).bind ?_ fun _ _ he => he.2.toReads)
    intro last b₃ h₃
    rw [h₃.1, Text.contains_dropFeed (by decide), List.contains_iff_mem.mpr hl]
    trivial
  · intro e b₁ he
    have hr := he.reads
    rw [hn.without_eq] at hr
    simpa using hr

theorem run_harmless (k : Keeps fails holds) (h : Shows holds b p) (hp : p.InRange) {s : Statement}
    (hs : s.Harmless skeleton p) :
    Ends (s.run skeleton) b (fun a _ => a.committed? = none) fun _ b' => Reads holds b' p := by
  unfold Statement.Harmless at hs
  unfold Statement.run
  cases hc : s.command with
  | delete =>
    rw [hc] at hs
    exact (runDelete_harmless k h hp hs.1 hs.2).bind (fun _ _ _ => rfl) fun _ _ => id
  | reset =>
    rw [hc] at hs
    refine (reset_drafts k skeleton h.toReads).bind (fun _ _ _ => rfl) ?_
    intro e b₁ he
    have hr := he.reads
    have hp : p.replaced skeleton = p := by rw [← (hs : p.text = skeleton)]; rfl
    rw [hp] at hr
    simpa using hr
  | print =>
    have hl := (listing_ends k h).mono (fun _ _ => id) fun _ _ he => he.2.toReads
    exact hl.map fun _ _ _ => rfl
  | goto => exact rfl
  | clearScreen => exact rfl
  | insert | replace | help | quit =>
    rw [hc] at hs
    exact hs.elim

theorem submit_harmless (k : Keeps fails holds) (h : Shows holds b p) (hp : p.InRange)
    (hh : Harmless skeleton line p) :
    Ends (submit skeleton line) b (fun _ _ => True) fun _ b' => Reads holds b' p := by
  obtain ⟨hst, hall⟩ := hh
  cases hparse : Statement.parse line with
  | error e =>
    unfold submit Ends
    rw [bind_apply, runLine_error hst hparse]
    exact h.toReads
  | ok s =>
    unfold submit
    rw [runLine_statement hst hparse]
    refine (run_harmless k h hp (hall s hparse)).adaptExcept.bind ?_ fun _ _ => id
    intro a b₁ ha
    rw [ha]
    trivial

end Harmless

/-! ## What the others leave -/

section Harmful

variable {σ α ε ε' : Type} {holds : σ → Text → Prop} {n : Nat} {b b₁ : Buffer (FaultyStore σ)}
  {p q : Page} {skeleton line : Text}

/-- A refused load can leave the action with another page than it began with. -/
def Spoils (holds : σ → Text → Prop) (act : EStateM ε (Buffer (FaultyStore σ)) α) (p : Page) : Prop :=
  ∃ n q, q ≠ p ∧ ∀ b, Shows (Fused holds n) b p → StopsAt holds act b q

theorem StopsAt.adaptExcept {act : EStateM ε (Buffer (FaultyStore σ)) α} (h : StopsAt holds act b q)
    (f : ε → ε') : StopsAt holds (act.adaptExcept f) b q :=
  Ends.adaptExcept h

variable [TextStore σ] (k : Reliable holds)

/-- A line fails with the statement that it is. -/
theorem submit_stops {act : Action (FaultyStore σ) LineRepl.Action}
    (hr : runLine skeleton line = act.adaptExcept DispatchError.buffer) (h : StopsAt holds act b q) :
    StopsAt holds (submit skeleton line) b q := by
  unfold submit
  rw [hr]
  exact (h.adaptExcept _).bind _

/-- A line fails with the text that it commits. -/
theorem submit_stops_in_commit {a : LineRepl.Action} (hr : runLine skeleton line b = .ok a b₁)
    {text : Text} (ha : a.committed? = some text) (h : StopsAt holds (Session.enter text) b₁ q) :
    StopsAt holds (submit skeleton line) b q := by
  unfold submit StopsAt Ends
  rw [bind_apply, hr]
  simp only [ha]
  exact h.adaptExcept DispatchError.buffer

theorem enter_refused_at_once (h : Reads (Fused holds 0) b p) (text : Text) :
    StopsAt holds (Session.enter text) b p := by
  unfold Session.enter
  rw [write_eq]
  exact (changed_refused_at_once h).bind _

include k

theorem enter_refused (h : Reads (Fused holds 1) b p) (text : Text) :
    StopsAt holds (Session.enter text) b (p.written (text ++ ['\n'])) := by
  unfold Session.enter
  rw [write_eq]
  exact (changed_refused k (writeOver_lays (Fused.edits k 0) p _) h).bind _

theorem reset_refused (h : Reads (Fused holds 0) b p) (text : Text) :
    StopsAt holds (reset text) b (p.replaced text) := by
  rw [reset_eq]
  exact settled_refused (replace_lays (Fused.edits k 0) (by decide) p text) h

theorem reseal_refused (h : Reads (Fused holds 2) b p) :
    StopsAt holds reseal b ((p.erased closingBrace).settle.appended closingLine) := by
  refine Ends.get_bind ?_
  rw [eraseThrough_eq, append_eq]
  refine (changed_passes k (cutFrom_lays (Fused.edits k 1) p closingBrace) h).bind ?_
    fun _ _ => False.elim
  intro _ b₁ h₁
  exact (settled_refused (addText_lays (Fused.edits k 0) _ closingLine) h₁.2.toReads).bind _

theorem deleteLines_refused (h : Reads (Fused holds 1) b p) {start : Nat} (hs : 1 ≤ start)
    (size : Nat) : StopsAt holds (deleteLines start size) b (p.without start size) := by
  rw [deleteLines_eq hs]
  exact changed_refused k (removeFrom_lays (Fused.edits k 0) hs p size) h

/-- Lines that are not there are removed with two loads, or with none. -/
theorem deleteLines_passes (hp : p.InRange) {start : Nat} (hn : p.Lacks start)
    (h : Shows (Fused holds (if start = 0 then n else n + 2)) b p) (size : Nat) :
    Ends (deleteLines start size) b (fun _ b' => Shows (Fused holds n) b' p) fun _ _ => False := by
  by_cases hs : start = 0
  · rw [if_pos hs] at h
    subst hs
    exact h
  · rw [if_neg hs] at h
    have hpos := Nat.pos_of_ne_zero hs
    rw [deleteLines_eq hpos]
    refine (changed_passes k (removeFrom_lays (Fused.edits k (n + 1)) hpos p size) h.toReads).mono
      ?_ fun _ _ => id
    intro _ b₁ h₁
    rw [hn.without_eq, hp.settle_eq] at h₁
    exact h₁.2

theorem runDelete_refused (h : Shows (Fused holds 1) b p) {arg : Option LineArg}
    (hs : 1 ≤ (Statement.deletion p.cursor arg).1) :
    StopsAt holds (Statement.runDelete arg) b
      (p.without (Statement.deletion p.cursor arg).1 (Statement.deletion p.cursor arg).2) := by
  refine Ends.get_bind ?_
  rw [h.cursor]
  exact (deleteLines_refused k h.toReads hs (Statement.deletion p.cursor arg).2).bind _

theorem runDelete_refused_late (hp : p.InRange) {arg : Option LineArg} {start : Nat}
    (hstart : (Statement.deletion p.cursor arg).1 = start)
    (hn : p.Lacks start) (hl : closingBrace ∉ p.text.lastPiece)
    (h : Shows (Fused holds (if start = 0 then 2 else 4)) b p) :
    StopsAt holds (Statement.runDelete arg) b
      ((p.erased closingBrace).settle.appended closingLine) := by
  subst hstart
  refine Ends.get_bind ?_
  rw [h.cursor]
  refine (deleteLines_passes k (n := 2) hp hn h (Statement.deletion p.cursor arg).2).bind ?_
    fun _ _ => False.elim
  intro _ b₁ h₁
  have h₂ := h₁.setCursor (Statement.deletion p.cursor arg).1
  rw [hn.setCursor_eq] at h₂
  refine Ends.modify_bind ((lastLine_ends (Fused.edits k 2) h₂).bind ?_ fun _ _ he => he.1.elim)
  intro last b₃ h₃
  rw [h₃.1, Text.contains_dropFeed (by decide), if_neg (mt List.contains_iff_mem.mp hl)]
  exact reseal_refused k h₃.2.toReads

/-- All that is committed can fail when it is written; `r` is the page before that. -/
theorem committed_spoils {a : LineRepl.Action} {text : Text} {r : Page}
    {f : Buffer (FaultyStore σ) → Buffer (FaultyStore σ)}
    (hr : ∀ b, runLine skeleton line b = .ok a (f b)) (ha : a.committed? = some text)
    (hf : ∀ b, Shows (Fused holds 1) b p → Shows (Fused holds 1) (f b) r)
    (ht : r.text = p.text) (hm : r.mode = p.mode ∨ r.mode = .insert) :
    Spoils holds (submit skeleton line) p :=
  ⟨1, _, Page.written_ne ht hm text, fun b h =>
    submit_stops_in_commit (hr b) ha (enter_refused k (hf b h).toReads text)⟩

/-- `ins` and `rep` set the mode before they write. -/
theorem aimed_spoils {arg : Option LineArg} {mode : WriteMode} {text : Text}
    (hr : ∀ b : Buffer (FaultyStore σ), runLine skeleton line b =
      .ok (.commit text) ((Statement.aim arg b).setMode mode)) :
    Spoils holds (submit skeleton line) p := by
  by_cases hm : mode = p.mode ∨ mode = .insert
  · exact committed_spoils k (r := { p.aimed arg with mode }) hr rfl
      (fun b h => (h.aim arg).setMode mode) (Page.aimed_text arg p) hm
  · -- the mode is changed before the first call of the store
    refine ⟨0, { p.aimed arg with mode }, fun e => hm (.inl (congrArg Page.mode e)), fun b h => ?_⟩
    exact submit_stops_in_commit (hr b) rfl
      (enter_refused_at_once ((h.aim arg).setMode mode).toReads text)

theorem runDelete_spoils (hp : p.InRange) {arg : Option LineArg}
    (hn : ¬ (p.Lacks (Statement.deletion p.cursor arg).1 ∧ closingBrace ∈ p.text.lastPiece)) :
    Spoils holds (Statement.runDelete arg : Action (FaultyStore σ) Unit) p := by
  by_cases hno : p.Lacks (Statement.deletion p.cursor arg).1
  · have hl : closingBrace ∉ p.text.lastPiece := fun hl => hn ⟨hno, hl⟩
    exact ⟨_, _, Page.closed_ne hl, fun b h => runDelete_refused_late k hp rfl hno hl h⟩
  · obtain ⟨h0, hle⟩ := not_or.mp hno
    have h1 := Nat.pos_of_ne_zero h0
    exact ⟨1, _, Page.without_ne h1 (Nat.le_of_not_lt hle) _, fun b h => runDelete_refused k h h1⟩

theorem statement_spoils (hp : p.InRange) (hst : Statement.isStatement line = true) {s : Statement}
    (hparse : Statement.parse line = .ok s) (hs : ¬ s.Harmless skeleton p) :
    Spoils holds (submit skeleton line) p := by
  have hrun : runLine skeleton line =
      ((s.run skeleton).adaptExcept .buffer : EStateM _ (Buffer (FaultyStore σ)) _) :=
    runLine_statement hst hparse
  unfold Statement.Harmless at hs
  unfold Statement.run at hrun
  cases hc : s.command with
  | goto | clearScreen | print =>
    rw [hc] at hs
    exact absurd trivial hs
  | insert =>
    rw [hc] at hrun
    have hr : ∀ b, runLine skeleton line b =
      .ok (.commit (s.body.getD [])) ((Statement.aim s.arg b).setMode .insert) := congrFun hrun
    exact aimed_spoils k hr
  | replace =>
    rw [hc] at hrun
    have hr : ∀ b, runLine skeleton line b =
      .ok (.commit (s.body.getD [])) ((Statement.aim s.arg b).setMode .replace) := congrFun hrun
    exact aimed_spoils k hr
  | help =>
    rw [hc] at hrun
    have hr : ∀ b, runLine skeleton line b = .ok .help b := congrFun hrun
    exact committed_spoils k hr rfl (fun _ => id) rfl (.inl rfl)
  | quit =>
    rw [hc] at hrun
    have hr : ∀ b, runLine skeleton line b = .ok .quit b := congrFun hrun
    exact committed_spoils k hr rfl (fun _ => id) rfl (.inl rfl)
  | reset =>
    rw [hc] at hs hrun
    refine ⟨0, p.replaced skeleton, fun e => hs (congrArg Page.text e).symm, fun b h => ?_⟩
    exact submit_stops hrun ((reset_refused k h.toReads skeleton).bind _)
  | delete =>
    rw [hc] at hs hrun
    obtain ⟨n, q, hq, hstop⟩ := runDelete_spoils k hp hs
    exact ⟨n, q, hq, fun b h => submit_stops hrun ((hstop b h).bind _)⟩

theorem submit_spoils (hp : p.InRange) (hh : ¬ Harmless skeleton line p) :
    Spoils holds (submit skeleton line) p := by
  cases hst : Statement.isStatement line with
  | false =>
    have hr : ∀ b : Buffer (FaultyStore σ), runLine skeleton line b = .ok (.commit line) b :=
      congrFun (runLine_text hst)
    exact committed_spoils k hr rfl (fun _ => id) rfl (.inl rfl)
  | true =>
    cases hparse : Statement.parse line with
    | error e =>
      refine absurd ⟨hst, fun s hs => ?_⟩ hh
      rw [hparse] at hs
      cases hs
    | ok s =>
      refine statement_spoils k hp hst hparse fun hs => hh ⟨hst, fun s' hs' => ?_⟩
      rw [hparse] at hs'
      obtain rfl := Except.ok.inj hs'
      exact hs

end Harmful

/-! ## Both together -/

variable {σ : Type} [TextStore σ] {holds : σ → Text → Prop} {b : Buffer (FaultyStore σ)} {K : Text}

theorem Reads.unique (k : Reliable holds) {p q : Page} (hp : Reads (FaultyStore.Holds holds) b p)
    (hq : Reads (FaultyStore.Holds holds) b q) : p = q := by
  obtain ⟨t, c, m⟩ := p
  obtain ⟨u, d, n⟩ := q
  obtain rfl : t = u := k.unique hp.held hq.held
  obtain rfl : c = d := hp.cursor.symm.trans hq.cursor
  obtain rfl : m = n := hp.mode.symm.trans hq.mode
  rfl

omit [TextStore σ] in
/-- An action of the buffer has no command errors. -/
theorem adaptExcept_ends {α : Type} (act : Action σ α) (b₁ : Buffer σ)
    (command : CommandError → Buffer σ → Prop) :
    Ends (act.adaptExcept DispatchError.buffer) b₁ (fun _ _ => True)
      fun e b' => ∀ c, e = .command c → command c b' := by
  refine Ends.adaptExcept (Ends.any.mono (fun _ _ _ => trivial) ?_)
  intro e b' _ c he
  cases he

/-- A malformed command is found out before anything is done. -/
theorem submit_command_error (skeleton line : Text) (b : Buffer σ) :
    Ends (submit skeleton line) b (fun _ _ => True) fun e b' => ∀ c, e = .command c → b' = b := by
  have hrun : Ends (runLine skeleton line) b (fun _ _ => True)
      fun e b' => ∀ c, e = .command c → b' = b := by
    cases hst : Statement.isStatement line with
    | false =>
      rw [runLine_text hst]
      trivial
    | true =>
      cases hparse : Statement.parse line with
      | error e =>
        unfold Ends
        rw [runLine_error hst hparse]
        exact fun _ _ => rfl
      | ok s =>
        rw [runLine_statement hst hparse]
        exact adaptExcept_ends _ _ _
  refine hrun.bind ?_ fun _ _ => id
  intro a b₁ _
  cases a.committed? with
  | none => trivial
  | some text => exact adaptExcept_ends _ _ _

/-- **What a line that fails leaves behind.** A malformed command leaves all as it was. Whichever store
calls are refused, a line leaves text, cursor and mode as they were, exactly if it is harmless: a
malformed command, one that writes nothing, or a `reset` or `del` that has nothing to change. -/
theorem submit_error_keeps_iff (k : Reliable holds)
    (h : Consistent (FaultyStore.Holds holds) b K) (skeleton line : Text) :
    (∀ e b', submit skeleton line b = .error (.command e) b' → b' = b) ∧
    ((∀ schedule e b',
        submit skeleton line { b with store := { b.store with schedule } } = .error e b' →
        FaultyStore.Holds holds b'.store K ∧ b'.cursor = b.cursor ∧ b'.mode = b.mode) ↔
      Harmless skeleton line ⟨K, b.cursor, b.mode⟩) := by
  have hp := h.inRange
  refine ⟨fun e b' he => (submit_command_error skeleton line b).error_of he e rfl, ?_, ?_⟩
  · intro hall
    refine Classical.byContradiction fun hh => ?_
    obtain ⟨n, q, hq, hstop⟩ := submit_spoils k hp hh
    have hs := hstop
      { b with store := { b.store with
          schedule := FaultyStore.refusesLoad (b.store.made .load + n) } }
      ⟨⟨⟨h.held, rfl⟩, rfl, rfl⟩, h.index⟩
    unfold StopsAt Ends at hs
    split at hs
    · exact hs
    · rename_i e b' he
      obtain ⟨ht, hc, hm⟩ := hall _ e b' he
      exact hq (hs.unique k ⟨ht, hc, hm⟩)
  · intro hh schedule e b' he
    have hb := (submit_harmless (FaultyStore.keeps k)
      (b := { b with store := { b.store with schedule } })
      ⟨⟨h.held, rfl, rfl⟩, h.index⟩ hp hh).error_of he
    exact ⟨hb.held, hb.cursor, hb.mode⟩

/-- A buffer over a text in memory, the cursor on the first line, and calls refused by a schedule. -/
def scheduled (text : Text) (schedule : StoreSchedule) : Buffer (FaultyStore MemoryStore) where
  store := { inner := ⟨text⟩, schedule }
  index := LineIndex.scan text

/-- `print` leaves all as it was, `rep` does not. -/
theorem submit_error_keeps_print :
    (∀ schedule e b', submit [] "$print".toList (scheduled "int x;\n\x7d\n".toList schedule) =
        .error e b' →
      b'.store.inner.text = "int x;\n\x7d\n".toList ∧ b'.cursor = 1 ∧ b'.mode = .insert) ∧
    ¬ ∀ schedule e b', submit [] "$rep 1 y".toList
        (scheduled "int x;\n\x7d\n".toList schedule) = .error e b' →
      b'.store.inner.text = "int x;\n\x7d\n".toList ∧ b'.cursor = 1 ∧ b'.mode = .insert := by
  have h : Consistent (FaultyStore.Holds MemoryStore.Holds)
      (scheduled "int x;\n\x7d\n".toList FaultyStore.never) "int x;\n\x7d\n".toList :=
    ⟨rfl, rfl, by decide, by decide⟩
  have hprint := (submit_error_keeps_iff MemoryStore.reliable h [] "$print".toList).2
  have hrep := (submit_error_keeps_iff MemoryStore.reliable h [] "$rep 1 y".toList).2
  refine ⟨hprint.mpr ⟨rfl, fun s hs => ?_⟩, fun hall => ?_⟩
  · cases hs
    trivial
  · exact (hrep.mp hall).2 ⟨.replace, some (.line 1), some "y".toList⟩ rfl

/-- A refused write leaves `rep` with its cursor and its mode. -/
theorem submit_error_keeps_not :
    ∃ e b', submit [] "$rep 2 int y;".toList
        (scheduled "int main() \x7b\nint x;\n\x7d\n".toList fun call n =>
          if call = .replace ∧ n = 0 then some ⟨.permissionDenied, "denied"⟩ else none) =
        .error (.buffer e) b' ∧
      b'.store.inner.text = "int main() \x7b\nint x;\n\x7d\n".toList ∧
      ¬ (b'.cursor = 1 ∧ b'.mode = .insert) :=
  ⟨_, _, rfl, rfl, by decide⟩

end Buffer

/-! ## Failed lines in a session -/

namespace Session

variable {ω : Type} [Workshop ω] {s : Session ω} {b b' : Buffer ω} {line text : Text}

theorem commit_of_enter_error (hb : s.buffer = b) {e : BufferError}
    (h : enter text b = .error e b') :
    Ends (commit text) s (fun _ s => s.buffer = b') fun _ s => s.buffer = b' := by
  rw [Ends, commit_apply, hb, h]
  exact present_leavesBuffer _ rfl

theorem finalize_of_enter_error (hb : s.buffer = b) {e : BufferError}
    (h : enter [] b = .error e b') :
    Ends finalize s (fun _ s => s.buffer = b') fun _ s => s.buffer = b' :=
  Ends.bind (commit_of_enter_error hb h) (fun _ _ h => display_leavesBuffer _ h) fun _ _ => id

/-- Handling a line whose submission fails leaves the session with the buffer that the failure left.
Only if the help cannot be shown, nothing is committed any more. -/
theorem handleLine_of_submit_error {e : DispatchError}
    (h : submit s.options.skeleton line s.buffer = .error e b') :
    Ends (handleLine line) s (fun _ s' => s'.buffer = b') fun _ s' => s'.buffer = b' ∨
      runLine s.options.skeleton line s.buffer = .ok .help s'.buffer := by
  unfold submit at h
  rw [bind_apply] at h
  rw [Ends, handleLine_apply]
  cases hr : runLine s.options.skeleton line s.buffer with
  | error e₁ b₁ =>
    rw [hr] at h
    obtain ⟨-, rfl⟩ := EStateM.Result.error.inj h
    exact Ends.bind (present_leavesBuffer _ rfl) (fun _ _ h => h) fun _ _ => .inl
  | ok a b₁ =>
    rw [hr] at h
    cases hc : a.committed? with
    | none =>
      simp only [hc] at h
      cases h
    | some text =>
      simp only [hc] at h
      rw [adaptExcept_apply] at h
      cases he : enter text b₁ with
      | ok _ b₂ =>
        rw [he] at h
        cases h
      | error e₁ b₂ =>
        rw [he] at h
        obtain ⟨-, rfl⟩ := EStateM.Result.error.inj h
        cases a with
        | done | clearScreen | print _ => cases hc
        | commit t =>
          obtain rfl := Option.some.inj hc
          exact Ends.bind (commit_of_enter_error rfl he) (fun _ _ h => h) fun _ _ => .inl
        | quit =>
          obtain rfl := Option.some.inj hc
          exact Ends.bind (finalize_of_enter_error rfl he) (fun _ _ h => h) fun _ _ => .inl
        | help =>
          obtain rfl := Option.some.inj hc
          refine Ends.bind (present_leavesBuffer _ rfl) ?_ fun _ _ h => .inr (by rw [h])
          intro _ s₁ h₁
          exact Ends.bind (finalize_of_enter_error h₁ he) (fun _ _ h => h) fun _ _ => .inl

end Session
end LineRepl
