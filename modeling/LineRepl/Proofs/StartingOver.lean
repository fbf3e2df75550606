import LineRepl.Buffer.Basic
import LineRepl.Proofs.FileLaws
import Mathlib.Tactic.SplitIfs

/-! Starting over in a file. A new buffer puts the skeleton in the place of whatever the file held,
so what it holds and shows afterwards is told by the skeleton alone. But it is opened first, and
opening scans the old text: bytes that are no text stop it before anything is written. Putting a
text in place of a file without that scan goes through over any bytes. -/
namespace LineRepl

open Attempt

/-- The bytes are those of a text. -/
def Bytes.IsText (data : Bytes) : Prop := ∃ t : Text, t.utf8 = data

theorem Bytes.isText_iff {data : Bytes} : data.IsText ↔ data.text?.isSome := by
  constructor
  · rintro ⟨t, rfl⟩
    rw [Text.text?_utf8]
    rfl
  · intro h
    obtain ⟨t, ht⟩ := Option.isSome_iff_exists.mp h
    exact ⟨t, Text.utf8_of_text? ht⟩

/-! ## Paths that can be written -/

namespace FileTree

variable {t : FileTree} {p : Path} {names place : List Text} {n : Node} {old : Option Bytes}

/-- A file can be written at the path, where there are these bytes or, so far, nothing. -/
def Writable (t : FileTree) (p : Path) (old : Option Bytes) : Prop :=
  ∃ names runnable, t.fileTarget p = .ok names ∧
    t.node? names = old.map fun data => .file data runnable

/-- A path that ends in a slash is never one of a file. -/
theorem locate_of_fileTarget (h : t.fileTarget p = .ok names) : t.locate p = .ok names := by
  unfold fileTarget at h
  split at h
  · split at h
    · cases h
    · cases h
    · split at h
      · cases hl : t.locate (withoutSlash p) with
        | error e =>
          rw [hl] at h
          cases h
        | ok _ =>
          rw [hl] at h
          cases h
      · cases h
  · exact h

/-- Where a path led somewhere it still does, once a node is put where no directory was: the way
goes through directories only. -/
theorem follow_put_of_ok (hn : t.node? names ≠ some .directory) (n : Node) {here fs : List Text}
    (h : t.follow here fs = .ok place) : (t.put names n).follow here fs = .ok place := by
  induction fs generalizing here with
  | nil => exact h
  | cons f fs ih =>
    unfold follow at h ⊢
    cases hd : t.node? here with
    | none =>
      rw [hd] at h
      cases h
    | some m =>
      cases m with
      | file data runnable =>
        rw [hd] at h
        cases h
      | directory =>
        have hne : here ≠ names := by
          rintro rfl
          exact hn hd
        rw [hd] at h
        rw [node?_put_of_ne hne, hd]
        dsimp only at h ⊢
        split_ifs at h ⊢
        all_goals exact ih h

theorem locate_put_of_ok (hn : t.node? names ≠ some .directory) (n : Node)
    (h : t.locate p = .ok place) : (t.put names n).locate p = .ok place := by
  unfold locate at h ⊢
  split_ifs at h ⊢
  all_goals
    generalize hf : t.follow _ _ = r at h
    cases r with
    | error e => cases h
    | ok q =>
      have hput : (t.put names n).follow _ _ = .ok q := follow_put_of_ok hn n hf
      exact hput ▸ h

theorem Writable.bytesOf (h : t.Writable p old) :
    t.bytesOf p = match old with
      | none => .error (.os .noEntry)
      | some data => .ok data := by
  obtain ⟨names, runnable, ht, hn⟩ := h
  unfold FileTree.bytesOf stat
  rw [locate_of_fileTarget ht]
  cases old with
  | none => simp only [hn, Option.map_none]
  | some data => simp only [hn, Option.map_some]

/-- A change of a file that can be written goes through, and it can be written again. -/
theorem Writable.modifyFile (h : t.Writable p old) (f : Bytes → Bytes) :
    ∃ names n, t.node? names ≠ some .directory ∧
      modifyFile p f t = .ok () (t.put names n) ∧
      (t.put names n).Writable p (some (f (old.getD []))) := by
  obtain ⟨names, runnable, ht, hn⟩ := h
  have hfile : t.node? names ≠ some .directory := by
    rw [hn]
    cases old <;> simp
  have hroot : names ≠ [] := by
    rintro rfl
    exact hfile rfl
  -- a file that is there may be runnable and stays so, a new one is not
  have hm : ∃ r, FileTree.modifyFile p f t =
      .ok () (t.put names (.file (f (old.getD [])) r)) := by
    cases old with
    | none => exact ⟨false, by simp only [FileTree.modifyFile, ht, hn, Option.map_none]; rfl⟩
    | some data =>
      exact ⟨runnable, by simp only [FileTree.modifyFile, ht, hn, Option.map_some]; rfl⟩
  obtain ⟨r, hm⟩ := hm
  have hnode := node?_put_self (t := t) hroot (.file (f (old.getD [])) r)
  refine ⟨names, _, hfile, hm, names, r, ?_, hnode⟩
  exact fileTarget_of_locate (locate_put_of_ok hfile _ (locate_of_fileTarget ht)) hnode

/-- A write leaves the new bytes, whatever the old ones were. -/
theorem Writable.writeFile (h : t.Writable p old) (new : Bytes) :
    ∃ t', writeFile p new t = .ok () t' ∧ t'.bytesOf p = .ok new := by
  obtain ⟨names, n, -, hw, h'⟩ := h.modifyFile fun _ => new
  exact ⟨t.put names n, hw, h'.bytesOf⟩

theorem writable_of_modifyFile {f : Bytes → Bytes} {t' : FileTree}
    (h : modifyFile p f t = .ok () t') : ∃ old, t.Writable p old := by
  unfold modifyFile at h
  cases ht : t.fileTarget p with
  | error e => simp only [ht] at h; cases h
  | ok names =>
    cases hn : t.node? names with
    | none => exact ⟨none, names, false, ht, hn⟩
    | some m =>
      cases m with
      | directory => simp only [ht, hn] at h; cases h
      | file data runnable => exact ⟨some data, names, runnable, ht, hn⟩

/-- These are all the paths at which a write succeeds. -/
theorem writable_iff : (∃ old, t.Writable p old) ↔ ∃ t', writeFile p [] t = .ok () t' := by
  constructor
  · rintro ⟨old, h⟩
    obtain ⟨t', hw, -⟩ := h.writeFile []
    exact ⟨t', hw⟩
  · rintro ⟨t', hw⟩
    exact writable_of_modifyFile hw

end FileTree

/-! ## New buffers -/

namespace FileStore

variable {s : FileStore} {old : Option Bytes}

theorem load_of_bytesOf {t : Text} (h : s.tree.bytesOf s.path = .ok t.utf8) :
    TextStore.load s = .ok t s := by
  show load s = _
  unfold load
  simp only [h, Text.text?_utf8]

theorem load_of_writable (h : s.tree.Writable s.path old) (ht : ∀ data ∈ old, data.IsText) :
    ∃ t, TextStore.load s = .ok t s := by
  cases old with
  | none =>
    -- a file that is missing loads as no text at all
    refine ⟨[], ?_⟩
    show load s = _
    unfold load
    simp only [h.bytesOf]
    rfl
  | some data =>
    obtain ⟨t, rfl⟩ := ht data rfl
    exact ⟨t, load_of_bytesOf h.bytesOf⟩

theorem load_of_not_isText {data : Bytes} (h : s.tree.Writable s.path (some data))
    (ht : ¬ data.IsText) : TextStore.load s = .error .notUtf8 s := by
  have hnone : data.text? = none := by
    rw [Bytes.isText_iff] at ht
    exact Option.not_isSome_iff_eq_none.mp ht
  show load s = _
  unfold load
  simp only [h.bytesOf, hnone]

end FileStore

namespace Buffer

variable {s : FileStore} {old : Option Bytes} {b : Buffer FileStore}

theorem openStore_of_writable (h : s.tree.Writable s.path old) (ht : ∀ data ∈ old, data.IsText) :
    ∃ b, openStore s = .ok b ∧ b.store = s ∧ b.mode = .insert := by
  obtain ⟨t, hload⟩ := FileStore.load_of_writable h ht
  refine ⟨⟨s, LineIndex.scan t, clamp (LineIndex.scan t).lineCount 1, .insert⟩, ?_, rfl, rfl⟩
  simp only [openStore, rescan, bind_apply, onStore_apply, hload, modify_apply]

/-- A scan stops at bytes that are no text, and leaves them as they are. -/
theorem rescan_of_not_isText {data : Bytes} (h : b.store.tree.Writable b.store.path (some data))
    (ht : ¬ data.IsText) : rescan b = .error ⟨.scan, .notUtf8⟩ b := by
  simp only [rescan, bind_apply, onStore_apply, FileStore.load_of_not_isText h ht]

/-- Putting a text in place of a file asks nothing of what the file held: it is one write, and a
scan of what was written. -/
theorem reset_of_writable (h : b.store.tree.Writable b.store.path old) (text : Text) :
    ∃ tree, FileTree.writeFile b.store.path text.utf8 b.store.tree = .ok () tree ∧
      tree.bytesOf b.store.path = .ok text.utf8 ∧
      reset text b = .ok () { b with
        store := { b.store with tree }
        index := LineIndex.scan text
        cursor := clamp (LineIndex.scan text).lineCount b.cursor } := by
  obtain ⟨tree, hw, hb⟩ := h.writeFile text.utf8
  have hreplace : TextStore.replace text b.store = .ok () { b.store with tree } := by
    show FileStore.onTree _ b.store = _
    simp only [FileStore.onTree, within_apply, hw]
  have hload := FileStore.load_of_bytesOf (s := { b.store with tree }) hb
  refine ⟨tree, hw, hb, ?_⟩
  simp only [reset, rescan, bind_apply, onStore_apply, hreplace, hload, modify_apply]

/-- The buffer of a skeleton that was written over a file. Of what the file held nothing is told:
the store differs from the old one by that write alone. -/
structure StartedOver (s : FileStore) (skeleton : Text) (b : Buffer FileStore) : Prop where
  written : ∃ tree, FileTree.writeFile s.path skeleton.utf8 s.tree = .ok () tree ∧
    b.store = ⟨tree, s.path⟩
  contents : contents b = .ok skeleton b
  index : b.index = LineIndex.scan skeleton
  cursor : b.cursor = max 1 (b.lineCount - 2)
  mode : b.mode = .insert

/-- **Starting over a file succeeds exactly over text**, or where there is no file yet. Then the
contents are the skeleton, the index is its scan, and the cursor stands on the last line but one of
those where it may. Over other bytes the scan of the old text fails, and the file is left alone. -/
theorem withSkeleton_starts_over (h : s.tree.Writable s.path old) (skeleton : Text) :
    ((∀ data ∈ old, data.IsText) →
      ∃ b, withSkeleton s skeleton = .ok b ∧ StartedOver s skeleton b) ∧
    ∀ data ∈ old, ¬ data.IsText →
      withSkeleton s skeleton = .error ⟨.scan, .notUtf8⟩ ∧
        rescan { store := s } = .error ⟨.scan, .notUtf8⟩ { store := s } := by
  constructor
  · intro ht
    obtain ⟨b, hopen, rfl, hmode⟩ := openStore_of_writable h ht
    obtain ⟨tree, hw, hb, hreset⟩ := reset_of_writable h skeleton
    let b' : Buffer FileStore :=
      { b with
        store := { b.store with tree }
        index := LineIndex.scan skeleton
        cursor := max 1 ((LineIndex.scan skeleton).lineCount - 2) }
    have hload : TextStore.load b'.store = .ok skeleton b'.store := FileStore.load_of_bytesOf hb
    refine ⟨b', ?_, ⟨tree, hw, rfl⟩, ?_, rfl, rfl, hmode⟩
    · simp only [withSkeleton, hopen, hreset]
      rfl
    · simp only [contents, onStore_apply, hload]
  · rintro data rfl ht
    have hscan : rescan { store := s } = _ := rescan_of_not_isText h ht
    exact ⟨by simp only [withSkeleton, openStore, hscan], hscan⟩

example : BufferError.message ⟨.scan, .notUtf8⟩ =
    "scan failed: stream did not contain valid UTF-8" := by decide

/-- A file `a` with these bytes, and nothing else. -/
def heldAt (data : Bytes) : FileStore := ⟨⟨[], [(["a".toList], .file data false)]⟩, "a"⟩

theorem heldAt_writable (data : Bytes) :
    (heldAt data).tree.Writable (heldAt data).path (some data) :=
  ⟨["a".toList], false, rfl, rfl⟩

theorem withSkeleton_starts_over_accent :
    (heldAt [0xC3, 0xA9]).tree.Writable (heldAt [0xC3, 0xA9]).path (some [0xC3, 0xA9]) ∧
      (∀ data ∈ some [0xC3, 0xA9], Bytes.IsText data) ∧
      ∃ b, withSkeleton (heldAt [0xC3, 0xA9]) "int main() \x7b\n\n\x7d\n".toList = .ok b ∧
        StartedOver (heldAt [0xC3, 0xA9]) "int main() \x7b\n\n\x7d\n".toList b := by
  have ht : ∀ data ∈ some [0xC3, 0xA9], Bytes.IsText data := by
    intro data hd
    obtain rfl := Option.mem_some_iff.mp hd
    exact ⟨"é".toList, rfl⟩
  exact ⟨heldAt_writable _, ht, (withSkeleton_starts_over (heldAt_writable _) _).1 ht⟩

/-- A byte that begins no character keeps the skeleton out of the file. -/
theorem withSkeleton_not_over_all_bytes :
    ¬ ∀ (s : FileStore) (skeleton : Text) (old : Option Bytes), s.tree.Writable s.path old →
      ∃ b, withSkeleton s skeleton = .ok b ∧ StartedOver s skeleton b := by
  intro h
  obtain ⟨b, hb, -⟩ := h (heldAt [0xFF]) "int main() \x7b\n\n\x7d\n".toList _ (heldAt_writable _)
  have herror : withSkeleton (heldAt [0xFF]) "int main() \x7b\n\n\x7d\n".toList =
      .error ⟨.scan, .notUtf8⟩ := by rfl
  rw [herror] at hb
  cases hb

end Buffer
end LineRepl
