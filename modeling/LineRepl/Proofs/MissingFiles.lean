import LineRepl.Proofs.Lockstep
import LineRepl.Proofs.StartingOver

/-! Files that are not there yet. A buffer over a missing file is opened like one over an empty
file, and every change that stores a text creates the file, after which the two can no longer be
told apart. Until then they agree on whatever does not read a line from where it begins: the whole
text of a missing file reads as empty, but its first line cannot be read. -/
namespace LineRepl

open Attempt

namespace FileStore

variable {s t s' t' : FileStore}

/-- Both files are there and hold the same bytes, text or not. -/
def SameBytes (s t : FileStore) : Prop :=
  ∃ data, s.tree.bytesOf s.path = .ok data ∧ t.tree.bytesOf t.path = .ok data

/-- The one file is missing and can be created, the other is there and empty. -/
def Unmade (s t : FileStore) : Prop :=
  s.tree.Writable s.path none ∧ t.tree.bytesOf t.path = .ok []

/-- A change of both trees that leaves the same bytes at the paths. -/
theorem together_onTree {act act' : FileTree.Action Unit} {data : Bytes}
    (h : ∃ tree, act s.tree = .ok () tree ∧ tree.bytesOf s.path = .ok data)
    (h' : ∃ tree, act' t.tree = .ok () tree ∧ tree.bytesOf t.path = .ok data) :
    Together SameBytes (onTree act s) (onTree act' t) := by
  obtain ⟨tree, ha, hd⟩ := h
  obtain ⟨tree', ha', hd'⟩ := h'
  simp only [onTree, within_apply, ha, ha']
  exact ⟨rfl, data, hd, hd'⟩

/-- Files are told apart by their bytes only, errors included. -/
theorem sameBytes_alike : CallsAlike SameBytes where
  load s t h := by
    obtain ⟨data, hs, ht⟩ := id h
    show Together _ (load s) (load t)
    simp only [load, hs, ht]
    cases data.text? <;> exact ⟨rfl, h⟩
  replace u s t h := by
    obtain ⟨data, hs, ht⟩ := h
    exact together_onTree (FileTree.modifyFile_of_bytesOf hs _)
      (FileTree.modifyFile_of_bytesOf ht _)
  append u s t h := by
    obtain ⟨data, hs, ht⟩ := h
    exact together_onTree (FileTree.modifyFile_of_bytesOf hs _)
      (FileTree.modifyFile_of_bytesOf ht _)
  truncate size s t h := by
    obtain ⟨data, hs, ht⟩ := id h
    show Together _ (truncate size s) (truncate size t)
    unfold truncate
    split
    · exact together_onTree (FileTree.resizeFile_of_bytesOf hs size)
        (FileTree.resizeFile_of_bytesOf ht size)
    · obtain ⟨tree, hr, -⟩ := FileTree.resizeFile_of_bytesOf hs 0
      obtain ⟨tree', hr', -⟩ := FileTree.resizeFile_of_bytesOf ht 0
      rw [hr, hr']
      exact ⟨rfl, h⟩
  readLineAt offset s t h := by
    obtain ⟨data, hs, ht⟩ := id h
    show Together _ (readLineAt offset s) (readLineAt offset t)
    simp only [readLineAt, hs, ht]
    split
    · cases (lineBytes offset data).text? <;> exact ⟨rfl, h⟩
    · exact ⟨rfl, h⟩

theorem load_of_missing (h : s.tree.Writable s.path none) : TextStore.load s = .ok [] s := by
  show load s = _
  simp only [load, h.bytesOf]
  rfl

theorem readLineAt_of_missing (h : s.tree.Writable s.path none) (offset : Nat) :
    TextStore.readLineAt offset s = .error (.os .noEntry) s := by
  show readLineAt offset s = _
  simp only [readLineAt, h.bytesOf]

/-- A text that is stored creates the missing file. -/
theorem replace_unmade (u : Text) : Jointly Unmade SameBytes
    (TextStore.replace u : EStateM IoError FileStore Unit) (TextStore.replace u) :=
  fun _ _ h => together_onTree (h.1.writeFile u.utf8) (FileTree.modifyFile_of_bytesOf h.2 _)

theorem append_unmade (u : Text) : Jointly Unmade SameBytes
    (TextStore.append u : EStateM IoError FileStore Unit) (TextStore.append u) := by
  intro s t h
  obtain ⟨names, n, -, hm, hw⟩ := h.1.modifyFile (· ++ u.utf8)
  exact together_onTree ⟨_, hm, hw.bytesOf⟩ (FileTree.modifyFile_of_bytesOf h.2 (· ++ u.utf8))

end FileStore

namespace Buffer

open FileStore (SameBytes Unmade)

/-! ## Buffers over nothing -/

namespace Call

/-- The call stores a text, whatever the buffer holds. -/
def creates : Call → Bool
  | step (.write _) | step (.append _) | step (.reset _) | step .reseal => true
  | step (.dispatch _ s) => s.command == .reset
  | _ => false

/-- In a buffer without any text, the call reads the first line. -/
def readsLine : Call → Bool
  | line n => n == 1
  | lastLine => true
  | step (.dispatch _ s) => s.command == .delete
  | _ => false

end Call

/-- Some call reads the first line and no call before it stores a text. -/
def readsUnstored : List Call → Bool
  | [] => false
  | c :: rest => c.readsLine || !c.creates && readsUnstored rest

/-- The store loads as empty, and index and cursor are those of no text. -/
structure Blank {σ : Type} [TextStore σ] (b : Buffer σ) : Prop where
  load : TextStore.load b.store = .ok [] b.store
  index : b.index = {}
  cursor : b.cursor = 1

namespace Blank

variable {σ : Type} [TextStore σ] {b : Buffer σ}

theorem onStore_load (h : Blank b) (operation : StoreOperation) :
    onStore operation TextStore.load b = .ok [] b := by
  simp only [onStore_apply, h.load]

theorem contents (h : Blank b) : contents b = .ok [] b := h.onStore_load .read

theorem rescan (h : Blank b) : rescan b = .ok () b := by
  obtain ⟨store, index, cursor, mode⟩ := b
  obtain rfl : index = {} := h.index
  obtain rfl : cursor = 1 := h.cursor
  simp only [Buffer.rescan, bind_apply, h.onStore_load, modify_apply]
  rfl

theorem setCursor (h : Blank b) (line : Nat) : b.setCursor line = b := by
  refine if_neg fun hl => ?_
  have hcount : b.lineCount = 1 := congrArg LineIndex.lineCount h.index
  omega

theorem aim (h : Blank b) (arg : Option LineArg) : Statement.aim arg b = b := by
  rcases arg with _ | n | _
  · rfl
  · exact h.setCursor n
  · rfl

theorem deleteLines (h : Blank b) (start size : Nat) : deleteLines start size b = .ok () b := by
  by_cases hs : start = 0
  · subst hs
    rfl
  · rw [deleteLines_eq (Nat.pos_of_ne_zero hs)]
    simp only [changed, settled, bind_apply, h.contents, removeFrom, Text.pieces, List.length_nil,
      Nat.not_lt_zero, if_false, pure_apply, h.rescan]

theorem eraseThrough (h : Blank b) (ch : Char) : eraseThrough ch b = .ok false b := by
  rw [eraseThrough_eq]
  simp only [changed, settled, bind_apply, h.contents, cutFrom, Text.beforeLast, pure_apply,
    h.rescan]

theorem line (h : Blank b) {n : Nat} (hn : n ≠ 1) : line n b = .ok [] b := by
  have ho : b.index.offset? n = none := by
    rw [h.index]
    rcases n with _ | _ | n
    · rfl
    · exact absurd rfl hn
    · rfl
  simp only [Buffer.line, ho]

/-- A statement that neither removes lines nor restores the skeleton. -/
theorem run (h : Blank b) {s : Statement} (hd : s.command ≠ .delete) (hr : s.command ≠ .reset)
    (skeleton : Text) :
    s.run skeleton b = .ok (Page.request s ⟨[], 1, b.mode⟩)
      { b with mode := (Page.applied skeleton s ⟨[], 1, b.mode⟩).mode } := by
  unfold Statement.run Page.request Page.applied
  cases hc : s.command with
  | delete => exact absurd hc hd
  | reset => exact absurd hc hr
  | goto => simp only [bind_apply, modify_apply, h.aim, pure_apply, Page.aimed_mode]
  | insert | replace =>
    simp only [bind_apply, modify_apply, h.aim, pure_apply]
    rfl
  | print => simp only [listing, map_apply, h.contents]
  | clearScreen | help | quit => rfl

/-- What neither stores a text nor reads a line is answered from the empty page, and changes the
mode at most. -/
theorem call (h : Blank b) {c : Call} (hc : c.creates = false) (hr : c.readsLine = false) :
    c.run b = .ok (c.answer ⟨[], 1, b.mode⟩)
      { b with mode := (c.page ⟨[], 1, b.mode⟩).mode } := by
  cases c with
  | step s =>
    cases s with
    | write text | append text | reset text | reseal => cases hc
    | rescan =>
      simp only [Call.run, Step.run, bind_apply, h.rescan]
      rfl
    | setCursor line =>
      simp only [Call.run, Step.run, bind_apply, modify_apply, h.setCursor, Call.page, Step.page,
        Page.setCursor_mode]
      rfl
    | setMode mode => rfl
    | deleteLines start size =>
      simp only [Call.run, Step.run, bind_apply, h.deleteLines, Call.page, Step.page, Page.settle,
        Page.without_mode]
      rfl
    | eraseThrough ch =>
      simp only [Call.run, map_apply, h.eraseThrough]
      rfl
    | dispatch skeleton s =>
      have hrun := h.run (beq_eq_false_iff_ne.mp hr) (beq_eq_false_iff_ne.mp hc) skeleton
      simp only [Call.run, map_apply, hrun]
      rfl
  | line n =>
    have hn : n ≠ 1 := beq_eq_false_iff_ne.mp hr
    have hnone : (if n = 0 then none else (Text.fields '\n' [])[n - 1]?) = none := by
      split
      · rfl
      · exact List.getElem?_eq_none (by simp only [Text.fields, List.length_singleton]; omega)
    simp only [Call.run, map_apply, h.line hn, Call.answer, hnone, Option.getD_none]
    rfl
  | lastLine => cases hr
  | contents =>
    simp only [Call.run, map_apply, h.contents]
    rfl
  | listing =>
    simp only [Call.run, map_apply, listing, h.contents]
    rfl

theorem write (h : Blank b) (t : Text) : write t b = settled (writeOver t []) b := by
  rw [write_eq, changed, bind_apply, h.contents]

theorem reseal (h : Blank b) :
    reseal b = (do append closingLine; modify (Buffer.setCursor 1)) b := by
  simp only [Buffer.reseal, bind_apply, get_apply, h.eraseThrough, h.cursor]

end Blank

/-! ## A missing file and an empty one -/

/-- A buffer over a missing file and one over an empty file, as long as nothing was stored. -/
structure Untouched (m f : Buffer FileStore) : Prop extends Pairs Unmade m f where
  missing : Blank m

variable {m f : Buffer FileStore} {c : Call}

theorem Untouched.empty (h : Untouched m f) : Blank f := by
  refine ⟨?_, h.index.symm.trans h.missing.index, h.cursor.symm.trans h.missing.cursor⟩
  exact FileStore.load_of_bytesOf (t := []) h.store.2

/-- What stores a text creates the file, and then both hold the same. -/
theorem Untouched.creates (h : Untouched m f) (hc : c.creates = true) :
    Together (Pairs SameBytes) (c.run m) (c.run f) := by
  have load := FileStore.sameBytes_alike.load
  have reset (t : Text) : Together (Pairs SameBytes) (reset t m) (reset t f) := by
    rw [reset_eq]
    exact settled_jointly load (onStore_jointly (FileStore.replace_unmade t) .reset) h.toPairs
  have append (t : Text) : Together (Pairs SameBytes) (append t m) (append t f) := by
    rw [append_eq]
    exact settled_jointly load (addText_jointly (FileStore.append_unmade t)) h.toPairs
  cases c with
  | step s =>
    cases s with
    | write t =>
      have hw : Together (Pairs SameBytes) (Buffer.write t m) (Buffer.write t f) := by
        rw [h.missing.write, h.empty.write]
        exact settled_jointly load (writeOver_jointly FileStore.replace_unmade t []) h.toPairs
      exact hw.bind fun _ => .pure _
    | append t => exact (append t).bind fun _ => .pure _
    | reset t => exact (reset t).bind fun _ => .pure _
    | reseal =>
      have hs : Together (Pairs SameBytes) (reseal m) (reseal f) := by
        rw [h.missing.reseal, h.empty.reseal]
        exact (append closingLine).bind fun _ => .update fun _ _ h' => h'.setCursor 1
      exact hs.bind fun _ => .pure _
    | dispatch skeleton s =>
      have hreset : s.command = .reset := beq_iff_eq.mp hc
      have hrun {σ : Type} [TextStore σ] : (s.run skeleton : Action σ LineRepl.Action) =
          (do Buffer.reset skeleton; pure .done) := by
        simp only [Statement.run, hreset]
      simp only [Call.run, hrun]
      exact ((reset skeleton).bind fun _ => .pure _).map _
    | _ => cases hc
  | _ => cases hc

/-- The first line of a missing file cannot be read, and that is noticed only after nothing was
done. -/
theorem Untouched.reads_missing (h : Untouched m f) (hc : c.readsLine = true) :
    c.run m = .error ⟨.read, .os .noEntry⟩ m := by
  have hline : line 1 m = .error ⟨.read, .os .noEntry⟩ m := by
    have ho : m.index.offset? 1 = some 0 := by rw [h.missing.index]; rfl
    simp only [line, ho, map_apply, onStore_apply, FileStore.readLineAt_of_missing h.store.1]
  have hlast : lastLine m = .error ⟨.read, .os .noEntry⟩ m := by
    have hcount : m.lineCount = 1 := congrArg LineIndex.lineCount h.missing.index
    simp only [lastLine, bind_apply, get_apply, hcount, hline]
  cases c with
  | step s =>
    cases s with
    | dispatch skeleton s =>
      have hdel : s.command = .delete := beq_iff_eq.mp hc
      simp only [Call.run, map_apply, Statement.run, hdel, Statement.runDelete, bind_apply,
        get_apply, h.missing.deleteLines, modify_apply, h.missing.setCursor, hlast]
    | _ => cases hc
  | line n =>
    obtain rfl : n = 1 := beq_iff_eq.mp hc
    simp only [Call.run, map_apply, hline]
  | lastLine => simp only [Call.run, map_apply, hlast]
  | _ => cases hc

theorem Page.deleted_of_nil (arg : Option LineArg) {p : Page} (hp : p.text = []) :
    (p.deleted arg).text = closingLine := by
  have hs : (p.shortened arg).text = [] := by
    have hl : p.Lacks (Statement.deletion p.cursor arg).1 := by
      unfold Page.Lacks
      rw [hp]
      exact Nat.eq_zero_or_pos _
    rw [Page.shortened_text, hl.without_eq, hp]
  have hlast : Text.lastPiece [] = [] := rfl
  have hcut : Text.cutBefore closingBrace [] = [] := rfl
  simp only [Page.deleted, hs, hlast, List.contains_nil, Bool.false_eq_true, if_false,
    Page.resealed_text, hcut, List.nil_append]

/-- Reading the first line of an empty file goes through. -/
theorem Untouched.reads_empty (h : Untouched m f) (hc : c.readsLine = true) :
    ∃ f', c.run f = .ok (c.answer ⟨[], 1, m.mode⟩) f' := by
  have hs : Shows (FileStore.Holds f.store.path) f ⟨[], 1, m.mode⟩ :=
    ⟨⟨⟨rfl, h.store.2⟩, h.empty.cursor, h.mode.symm⟩, h.empty.index⟩
  have hin : Page.InRange ⟨[], 1, m.mode⟩ := ⟨Nat.le_refl 1, Nat.le_max_left 1 _⟩
  have hsize : (c.page ⟨[], 1, m.mode⟩).text.byteSize ≤ 2 := by
    cases c with
    | step s =>
      cases s with
      | dispatch skeleton s =>
        have hdel : s.command = .delete := beq_iff_eq.mp hc
        simp only [Call.page, Step.page, Page.applied, hdel, Page.deleted_of_nil]
        decide
      | _ => cases hc
    | _ => exact Nat.zero_le 2
  have hends := call_ends (FileStore.keeps _) hs hin c
  have hfits : ∀ t : Text, Page.Spans ⟨[], 1, m.mode⟩ (c.page ⟨[], 1, m.mode⟩) t →
      ¬ FileStore.TooLarge t := by
    intro t ht hlarge
    have hle : t.byteSize ≤ 2 := Nat.le_trans ht (Nat.max_le.mpr ⟨Nat.zero_le 2, hsize⟩)
    exact absurd (Nat.le_trans hlarge hle) (by decide)
  obtain ⟨_, f', hr, rfl, -⟩ := hends.exists_ok fun _ _ ⟨t, ht, hlarge⟩ => hfits t ht hlarge
  exact ⟨f', hr⟩

/-- Any other call leaves both as they are, but for the mode. -/
theorem Untouched.stays (h : Untouched m f) (hc : c.creates = false) (hr : c.readsLine = false) :
    Together Untouched (c.run m) (c.run f) := by
  have he := h.empty
  rw [h.missing.call hc hr, he.call hc hr, h.mode]
  exact ⟨rfl, ⟨h.store, h.index, h.cursor, rfl⟩, h.missing.load, h.missing.index, h.missing.cursor⟩

/-! ## Runs -/

/-- What can be seen of a buffer without changing it. -/
structure View where
  contents : Except BufferError Text
  index : LineIndex
  cursor : Nat
  mode : WriteMode

/-- What a call comes to. -/
structure Sight where
  answer : Except BufferError Answer
  view : View

section Sights

variable {σ : Type} [TextStore σ]

def view (b : Buffer σ) : View := ⟨value (contents b), b.index, b.cursor, b.mode⟩

/-- What calls come to that are made one after the other, also when some of them fail. -/
def sights : List Call → Buffer σ → List Sight
  | [], _ => []
  | c :: rest, b => ⟨value (c.run b), (final (c.run b)).view⟩ :: sights rest (final (c.run b))

/-- The buffer after these calls. -/
def afterCalls (calls : List Call) (b : Buffer σ) : Buffer σ :=
  calls.foldl (fun b c => final (c.run b)) b

end Sights

theorem Pairs.view_eq {rel : FileStore → FileStore → Prop} (h : Pairs rel m f)
    (hl : Jointly rel rel (TextStore.load : EStateM IoError FileStore Text) TextStore.load) :
    m.view = f.view := by
  simp only [view, (contents_jointly hl h).value, h.index, h.cursor, h.mode]

theorem Untouched.view_eq (h : Untouched m f) : m.view = f.view := by
  simp only [view, h.missing.contents, h.empty.contents, h.index, h.cursor, h.mode, value]

/-- Over the same bytes everything comes to the same. -/
theorem sights_of_sameBytes (h : Pairs SameBytes m f) (calls : List Call) :
    sights calls m = sights calls f := by
  induction calls generalizing m f with
  | nil => rfl
  | cons c rest ih =>
    have hc := call_jointly FileStore.sameBytes_alike c h
    simp only [sights, hc.value, hc.final.view_eq FileStore.sameBytes_alike.load, ih hc.final]

theorem Untouched.sights_iff (h : Untouched m f) (calls : List Call) :
    sights calls m = sights calls f ↔ readsUnstored calls = false := by
  induction calls generalizing m f with
  | nil => exact ⟨fun _ => rfl, fun _ => rfl⟩
  | cons c rest ih =>
    cases hr : c.readsLine with
    | true =>
      obtain ⟨f', hf⟩ := h.reads_empty hr
      simp only [sights, h.reads_missing hr, hf, value, readsUnstored, hr]
      simp
    | false =>
      cases hc : c.creates with
      | true =>
        have hb := h.creates hc
        have hsights := sights_of_sameBytes hb.final rest
        simp only [sights, hb.value, hb.final.view_eq FileStore.sameBytes_alike.load, hsights,
          readsUnstored, hr, hc]
        simp
      | false =>
        have hb := h.stays hc hr
        simp only [sights, hb.value, hb.final.view_eq, List.cons.injEq, true_and, ih hb.final,
          readsUnstored, hr, hc]
        simp

theorem Untouched.after {earlier : List Call}
    (he : ∀ c ∈ earlier, c.creates = false ∧ c.readsLine = false) (h : Untouched m f) :
    Untouched (afterCalls earlier m) (afterCalls earlier f) := by
  induction earlier generalizing m f with
  | nil => exact h
  | cons c rest ih =>
    obtain ⟨hc, hr⟩ := he c List.mem_cons_self
    exact ih (fun d hd => he d (List.mem_cons_of_mem c hd)) (h.stays hc hr).final

variable {s t : FileStore}

/-- Opened over a missing file and over an empty one. -/
theorem untouched_of_openStore (hs : s.tree.Writable s.path none)
    (ht : t.tree.bytesOf t.path = .ok []) :
    ∃ m f, openStore s = .ok m ∧ openStore t = .ok f ∧ Untouched m f := by
  have hempty {σ : Type} [TextStore σ] {store : σ} (hl : TextStore.load store = .ok [] store) :
      openStore store = .ok { store } := by
    simp only [openStore, rescan, bind_apply, onStore_apply, hl, modify_apply]
    rfl
  have hload := FileStore.load_of_missing hs
  refine ⟨{ store := s }, { store := t }, hempty hload, ?_, ?_⟩
  · exact hempty (FileStore.load_of_bytesOf (t := []) ht)
  · exact ⟨⟨⟨hs, ht⟩, rfl, rfl, rfl⟩, hload, rfl, rfl⟩

/-- **A missing file passes for an empty one until its first line is read.** Whatever is done to the
two buffers, they agree call by call exactly as long as some text is stored before the first line is
asked for, by `line`, by `lastLine` or by a deletion. Where it is asked for too early, the missing
file refuses, with nothing done, and the empty one answers. -/
theorem missing_agrees_iff (hs : s.tree.Writable s.path none)
    (ht : t.tree.bytesOf t.path = .ok []) :
    ∃ m f, openStore s = .ok m ∧ openStore t = .ok f ∧ m.view = f.view ∧
      (∀ calls, sights calls m = sights calls f ↔ readsUnstored calls = false) ∧
      ∀ (earlier : List Call) (c : Call),
        (∀ d ∈ earlier, d.creates = false ∧ d.readsLine = false) → c.readsLine = true →
        c.run (afterCalls earlier m) = .error ⟨.read, .os .noEntry⟩ (afterCalls earlier m) ∧
          ∃ f', c.run (afterCalls earlier f) =
            .ok (c.answer ⟨[], 1, (afterCalls earlier f).mode⟩) f' := by
  obtain ⟨m, f, hm, hf, h⟩ := untouched_of_openStore hs ht
  refine ⟨m, f, hm, hf, h.view_eq, h.sights_iff, fun earlier c he hc => ?_⟩
  have ha := h.after he
  refine ⟨ha.reads_missing hc, ?_⟩
  rw [← ha.mode]
  exact ha.reads_empty hc

/-- No file at all, and one to be made. -/
def noFiles : FileStore := ⟨⟨[], []⟩, "a"⟩

theorem noFiles_writable : noFiles.tree.Writable noFiles.path none :=
  ⟨["a".toList], false, rfl, rfl⟩

theorem missing_agrees_iff_noFiles :
    noFiles.tree.Writable noFiles.path none ∧
      (heldAt []).tree.bytesOf (heldAt []).path = .ok [] ∧
      ∃ m f, openStore noFiles = .ok m ∧ openStore (heldAt []) = .ok f ∧ m.view = f.view ∧
        (∀ calls, sights calls m = sights calls f ↔ readsUnstored calls = false) ∧
        ∀ (earlier : List Call) (c : Call),
          (∀ d ∈ earlier, d.creates = false ∧ d.readsLine = false) → c.readsLine = true →
          c.run (afterCalls earlier m) = .error ⟨.read, .os .noEntry⟩ (afterCalls earlier m) ∧
            ∃ f', c.run (afterCalls earlier f) =
              .ok (c.answer ⟨[], 1, (afterCalls earlier f).mode⟩) f' :=
  ⟨noFiles_writable, rfl, missing_agrees_iff noFiles_writable rfl⟩

/-- A deletion in a file that is missing fails where one in an empty file lays down the brace. -/
theorem missing_parts_from_empty :
    ¬ ∀ s t : FileStore, s.tree.Writable s.path none → t.tree.bytesOf t.path = .ok [] →
      ∃ m f, openStore s = .ok m ∧ openStore t = .ok f ∧
        ∀ calls, sights calls m = sights calls f := by
  intro hall
  obtain ⟨m, f, hm, hf, heq⟩ := hall noFiles (heldAt []) noFiles_writable rfl
  obtain ⟨m', f', hm', hf', h⟩ := untouched_of_openStore noFiles_writable
    (show (heldAt []).tree.bytesOf (heldAt []).path = .ok [] from rfl)
  obtain rfl : m = m' := Except.ok.inj (hm.symm.trans hm')
  obtain rfl : f = f' := Except.ok.inj (hf.symm.trans hf')
  have hdel := (h.sights_iff [.step (.dispatch [] ⟨.delete, some (.line 1), none⟩)]).mp (heq _)
  exact absurd hdel (by decide)

end Buffer
end LineRepl
