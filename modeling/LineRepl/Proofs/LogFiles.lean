import LineRepl.Build.Journal
import LineRepl.Proofs.StartingOver
import Mathlib.Data.List.Forall2

/-! A log as a file of a tree. An entry is added in two moves: the directories above the log are made
where they are missing, and then the file is appended to, or created. Once this went through, the
directories are there and stay there, so that the next entry only has to be appended. -/
namespace LineRepl

open Attempt

/-! ## Directories -/

namespace FileTree

variable {t t' : FileTree} {p : Path} {names : List Text}

theorem isDirectory_iff :
    t.isDirectory p = true ↔ ∃ names, t.locate p = .ok names ∧ t.node? names = some .directory := by
  unfold isDirectory stat
  cases t.locate p with
  | error e => simp
  | ok names =>
    cases hn : t.node? names with
    | none => simp [hn]
    | some n => cases n <;> simp [hn]

theorem locate_eq_ok_iff :
    t.locate p = .ok names ↔ p.text ≠ [] ∧ '\x00' ∉ p.text ∧
      t.follow (if p.isAbsolute then [] else t.current) (Text.fields '/' p.text) = .ok names := by
  unfold locate
  by_cases he : p.text = []
  · simp [he]
  · by_cases hz : '\x00' ∈ p.text
    · simp [he, hz]
    · simp only [List.isEmpty_iff, he, List.contains_iff_mem, hz, if_false, ne_eq, not_false_eq_true,
        true_and]
      cases t.follow _ _ with
      | error e => simp [Except.mapError]
      | ok place => simp [Except.mapError]

/-- A path leads on from directories only. -/
theorem isDirectory_of_follow_cons {here fs : List Text} {f : Text}
    (h : t.follow here (f :: fs) = .ok names) : t.node? here = some .directory := by
  unfold follow at h
  cases hn : t.node? here with
  | none =>
    rw [hn] at h
    cases h
  | some n =>
    cases n with
    | file data runnable =>
      rw [hn] at h
      cases h
    | directory => rfl

/-- Nothing after a slash leads on from a directory to itself. -/
theorem follow_append_void (hd : t.node? names = some .directory) (here fs : List Text) (k : Nat) :
    t.follow here (fs ++ List.replicate k []) = .ok names ↔ t.follow here fs = .ok names := by
  induction fs generalizing here with
  | nil =>
    induction k with
    | zero => rfl
    | succ k ih =>
      rw [← ih, List.nil_append, List.nil_append, List.replicate_succ]
      have hvoid (hh : t.node? here = some .directory) :
          t.follow here ([] :: List.replicate k []) = t.follow here (List.replicate k []) := by
        rw [follow, hh]
        rfl
      constructor
      · intro h
        rwa [hvoid (isDirectory_of_follow_cons h)] at h
      · intro h
        obtain rfl : here = names := Except.ok.inj (ih.mp h)
        rwa [hvoid hd]
  | cons f fs ih =>
    simp only [List.cons_append, follow]
    cases t.node? here with
    | none => rfl
    | some n =>
      cases n with
      | file data runnable => rfl
      | directory => split_ifs <;> first | exact ih _ | rfl

theorem exists_slashes (p : Path) : ∃ k, p.text = (withoutSlash p).text ++ List.replicate k '/' := by
  have hall : ∀ c ∈ p.text.reverse.takeWhile (· = '/'), c = '/' := fun c hc =>
    of_decide_eq_true (List.all_eq_true.mp List.all_takeWhile c hc)
  refine ⟨(p.text.reverse.takeWhile (· = '/')).length, ?_⟩
  rw [← List.reverse_inj, List.reverse_append, List.reverse_replicate,
    ← List.eq_replicate_of_mem hall]
  simp only [withoutSlash, List.reverse_reverse]
  exact List.takeWhile_append_dropWhile.symm

theorem fields_append_slashes (x : Text) (k : Nat) :
    Text.fields '/' (x ++ List.replicate k '/') = Text.fields '/' x ++ List.replicate k [] := by
  induction k with
  | zero => simp
  | succ k ih =>
    rw [List.replicate_succ', ← List.append_assoc, fields_append_separator, ih,
      List.replicate_succ', List.append_assoc]

/-- Where a directory is made, that is, without the slashes at the end of its path, is where the path
leads to it. -/
theorem locate_withoutSlash (hd : t.node? names = some .directory) :
    t.locate (if (withoutSlash p).text.isEmpty then p else withoutSlash p) = .ok names ↔
      t.locate p = .ok names := by
  by_cases he : (withoutSlash p).text = []
  · simp [he]
  · obtain ⟨k, hk⟩ := exists_slashes p
    have habs : (withoutSlash p).isAbsolute = p.isAbsolute := by
      obtain ⟨c, r, hc⟩ := List.exists_cons_of_ne_nil he
      simp only [Path.isAbsolute, hk, hc, List.cons_append, List.head?_cons]
    have hzero : '\x00' ∈ p.text ↔ '\x00' ∈ (withoutSlash p).text := by
      rw [hk, List.mem_append]
      refine ⟨fun h => h.elim id fun h => ?_, .inl⟩
      exact absurd (List.eq_of_mem_replicate h) (by decide)
    have hne : p.text ≠ [] := by
      rw [hk]
      exact List.append_ne_nil_of_left_ne_nil he _
    have hfields := fields_append_slashes (withoutSlash p).text k
    rw [← hk] at hfields
    rw [if_neg (mt List.isEmpty_iff.mp he), locate_eq_ok_iff, locate_eq_ok_iff, habs, hzero, hfields,
      follow_append_void hd]
    simp only [ne_eq, he, hne, not_false_eq_true, true_and]

theorem makeDirectory_of_isDirectory (h : t.isDirectory p = true) :
    makeDirectory p t = .error (.os .exists) t := by
  obtain ⟨names, hl, hd⟩ := isDirectory_iff.mp h
  simp only [makeDirectory, (locate_withoutSlash hd).mpr hl, hd]

/-- A directory is made where nothing was, or nothing happens. -/
theorem makeDirectory_ends (p : Path) (t : FileTree) :
    Ends (makeDirectory p) t
      (fun _ t' => ∃ names, t.node? names = none ∧ t' = t.put names .directory ∧
        t.locate (if (withoutSlash p).text.isEmpty then p else withoutSlash p) = .ok names)
      fun _ t' => t' = t := by
  unfold Ends makeDirectory
  dsimp only
  cases hl : t.locate _ with
  | error e => exact rfl
  | ok names =>
    cases hn : t.node? names with
    | some n => simp only [hn]
    | none =>
      simp only [hn]
      exact ⟨names, hn, rfl, rfl⟩

theorem isDirectory_of_makeDirectory (h : makeDirectory p t = .ok () t') :
    t'.isDirectory p = true := by
  obtain ⟨names, hn, rfl, hl⟩ := (makeDirectory_ends p t).ok_of h
  have hroot : names ≠ [] := by
    rintro rfl
    cases hn
  have hfree : t.node? names ≠ some .directory := by
    rw [hn]
    exact nofun
  have hd := node?_put_self (t := t) hroot .directory
  exact isDirectory_iff.mpr
    ⟨names, (locate_withoutSlash hd).mp (locate_put_of_ok hfree .directory hl), hd⟩

/-- What a new directory leaves as it was, any number of them do. -/
theorem makeDirectoriesWithin_keeps {I : FileTree → Prop}
    (hI : ∀ {t names}, t.node? names = none → I t → I (t.put names .directory)) (n : Nat) (p : Path)
    (h : I t) : Ends (makeDirectoriesWithin n p) t (fun _ => I) fun _ => I := by
  have hone (p : Path) {t : FileTree} (h : I t) :
      Ends (makeDirectory p) t (fun _ => I) fun _ => I := by
    refine (makeDirectory_ends p t).mono ?_ ?_
    · rintro _ _ ⟨names, hn, rfl, -⟩
      exact hI hn h
    · rintro _ _ rfl
      exact h
  induction n generalizing p t with
  | zero => exact h
  | succ n ih =>
    have hp := hone p h
    unfold Ends makeDirectoriesWithin
    split_ifs
    · exact h
    · cases hm : makeDirectory p t with
      | ok _ t₁ => exact hp.ok_of hm
      | error e t₁ =>
        have h₁ := hp.error_of hm
        dsimp only
        split_ifs
        · cases p.parent? with
          | none => exact h₁
          | some q =>
            have hq := ih q h₁
            dsimp only
            cases hr : makeDirectoriesWithin n q t₁ with
            | error e t₂ => exact hq.error_of hr
            | ok _ t₂ =>
              have hp := hone p (hq.ok_of hr)
              dsimp only
              cases hm : makeDirectory p t₂ with
              | ok _ t₃ => exact hp.ok_of hm
              | error e t₃ =>
                dsimp only
                split_ifs
                all_goals exact hp.error_of hm
        all_goals exact h₁

/-- Nothing is made where a directory is. -/
theorem makeDirectories_of_isDirectory (h : t.isDirectory p = true) :
    makeDirectories p t = .ok () t := by
  have hne : p.text.isEmpty = false := by
    obtain ⟨names, hl, -⟩ := isDirectory_iff.mp h
    simpa using (locate_eq_ok_iff.mp hl).1
  have hkind : (IoError.os .exists).kind ≠ .notFound := by decide
  simp only [makeDirectories, makeDirectoriesWithin, hne, Bool.false_eq_true, if_false,
    makeDirectory_of_isDirectory h, hkind, h, if_true]

/-- What was to be made is there, unless the path is empty and nothing was to be made. -/
theorem isDirectory_of_makeDirectories (h : makeDirectories p t = .ok () t') :
    p.text = [] ∨ t'.isDirectory p = true := by
  unfold makeDirectories makeDirectoriesWithin at h
  split at h
  · exact .inl (List.isEmpty_iff.mp ‹_›)
  · refine .inr ?_
    split at h
    · rename_i hm
      obtain ⟨-, rfl⟩ := EStateM.Result.ok.inj h
      exact isDirectory_of_makeDirectory hm
    · split at h
      · split at h
        · cases h
        · split at h
          · cases h
          · split at h
            · rename_i hm
              obtain ⟨-, rfl⟩ := EStateM.Result.ok.inj h
              exact isDirectory_of_makeDirectory hm
            · split at h
              · obtain ⟨-, rfl⟩ := EStateM.Result.ok.inj h
                assumption
              · cases h
      · split at h
        · obtain ⟨-, rfl⟩ := EStateM.Result.ok.inj h
          assumption
        · cases h

/-- A directory is still there when something is put where none was. -/
theorem isDirectory_put (hn : t.node? names ≠ some .directory) (n : Node)
    (h : t.isDirectory p = true) : (t.put names n).isDirectory p = true := by
  obtain ⟨place, hl, hd⟩ := isDirectory_iff.mp h
  have hne : place ≠ names := by
    rintro rfl
    exact hn hd
  exact isDirectory_iff.mpr
    ⟨place, locate_put_of_ok hn n hl, (node?_put_of_ne hne n).trans hd⟩

/-- A file is still there when something is put where nothing was. -/
theorem bytesOf_put_of_none {data : Bytes} (hn : t.node? names = none) (n : Node)
    (h : t.bytesOf p = .ok data) : (t.put names n).bytesOf p = .ok data := by
  obtain ⟨place, runnable, hl, hf⟩ := bytesOf_eq_ok.mp h
  have hfree : t.node? names ≠ some .directory := by
    rw [hn]
    exact nofun
  have hne : place ≠ names := by
    rintro rfl
    cases hn.symm.trans hf
  exact bytesOf_eq_ok.mpr
    ⟨place, runnable, locate_put_of_ok hfree n hl, (node?_put_of_ne hne n).trans hf⟩

end FileTree

/-! ## Entries -/

namespace Text

/-- With a line feed after it, unless it is empty or has one there. -/
def ended (t : Text) : Text :=
  if t = [] ∨ t.getLast? = some '\n' then t else t ++ ['\n']

theorem getLast?_ended {t : Text} (h : t ≠ []) : t.ended.getLast? = some '\n' := by
  unfold ended
  split
  · rename_i hc
    exact hc.resolve_left h
  · exact List.getLast?_concat

end Text

namespace Journal

variable {path : Path} {t t' : FileTree} {tag : LogTag} {text : Text} {secs : Nat}

/-- What an entry says before it is ended. -/
def line (tag : LogTag) (text : Text) (secs : Nat) : Text :=
  Date.format secs ++ " " ++ tag.label ++ ": " ++ text

theorem line_ne_nil (tag : LogTag) (text : Text) (secs : Nat) : line tag text secs ≠ [] := by
  simp [line]

theorem entry_eq (tag : LogTag) (text : Text) (secs : Nat) :
    entry tag text secs = (line tag text secs).ended := by
  simp only [Text.ended, line_ne_nil, false_or]
  rfl

/-! ## Adding entries -/

/-- Makes the directories above a path where they are missing. -/
def makeAbove (path : Path) : FileTree.Action Unit :=
  match path.parent? with
  | some dir => FileTree.makeDirectories dir
  | none => pure ()

theorem append_blank (hb : text.allBlank = true) (secs : Nat) (tag : LogTag) (t : FileTree) :
    append path secs tag text t = .ok () t := by
  simp only [append, hb, if_true]
  rfl

theorem append_entry (hb : text.allBlank = false) (secs : Nat) (tag : LogTag) :
    append path secs tag text =
      (do makeAbove path; FileTree.appendFile path (entry tag text secs).utf8) := by
  simp only [append, makeAbove, hb, Bool.false_eq_true, if_false]
  cases path.parent? <;> rfl

/-- Once the directories above a path are there, they are not made again. -/
theorem makeAbove_put {names : List Text} (h : makeAbove path t = .ok () t')
    (hn : t'.node? names ≠ some .directory) (n : Node) :
    makeAbove path (t'.put names n) = .ok () (t'.put names n) := by
  unfold makeAbove at h ⊢
  cases hp : path.parent? with
  | none => rfl
  | some dir =>
    rw [hp] at h
    obtain he | hd := FileTree.isDirectory_of_makeDirectories h
    · simp only [FileTree.makeDirectories, FileTree.makeDirectoriesWithin, he, List.isEmpty_nil,
        if_true]
    · exact FileTree.makeDirectories_of_isDirectory (FileTree.isDirectory_put hn n hd)

/-- What a new directory leaves as it was stays as it was. -/
theorem makeAbove_keeps {I : FileTree → Prop}
    (hI : ∀ {t names}, t.node? names = none → I t → I (t.put names .directory))
    (h : makeAbove path t = .ok () t') (ht : I t) : I t' := by
  unfold makeAbove at h
  cases hp : path.parent? with
  | none =>
    rw [hp] at h
    obtain ⟨-, rfl⟩ := EStateM.Result.ok.inj h
    exact ht
  | some dir =>
    rw [hp] at h
    exact (FileTree.makeDirectoriesWithin_keeps hI _ dir ht).ok_of h

theorem bytesOf_of_makeAbove {data : Bytes} (h : makeAbove path t = .ok () t') {p : Path}
    (hb : t.bytesOf p = .ok data) : t'.bytesOf p = .ok data :=
  makeAbove_keeps (I := fun t => t.bytesOf p = .ok data)
    (fun hn => FileTree.bytesOf_put_of_none hn _) h hb

/-- What a log holds, and what reading it comes to. It may not be there yet, and neither may the
directories above it, without which it cannot be read. -/
structure Record where
  bytes : Bytes
  read : Except IoError Bytes

/-- With these lines behind what it held. -/
def Record.grown (log : Record) (lines : List Text) : Record :=
  if lines = [] then log
  else
    let bytes := log.bytes ++ Text.utf8 lines.flatten
    ⟨bytes, .ok bytes⟩

theorem Record.grown_bytes (log : Record) (lines : List Text) :
    (log.grown lines).bytes = log.bytes ++ Text.utf8 lines.flatten := by
  unfold grown
  split_ifs with h
  · rw [h]
    exact (List.append_nil _).symm
  · rfl

theorem Record.grown_grown (log : Record) (lines others : List Text) :
    (log.grown lines).grown others = log.grown (lines ++ others) := by
  by_cases h : others = []
  · rw [h, List.append_nil]
    exact if_pos rfl
  · have hne : lines ++ others ≠ [] := List.append_ne_nil_of_right_ne_nil _ h
    rw [grown, if_neg h, grown_bytes, grown, if_neg hne, List.flatten_append, Text.utf8_append,
      List.append_assoc]

/-- The log can be appended to once the directories above it are made. -/
structure Holds (path : Path) (t : FileTree) (log : Record) : Prop where
  appendable : ∃ t' old, makeAbove path t = .ok () t' ∧ t'.Writable path old ∧
    old.getD [] = log.bytes
  read : t.bytesOf path = log.read

variable {log : Record}

/-- What can be read of a log is all that it holds. -/
theorem Holds.bytes_of_read (h : Holds path t log) {data : Bytes} (hr : t.bytesOf path = .ok data) :
    log.bytes = data := by
  obtain ⟨t', old, hm, hw, hb⟩ := h.appendable
  have hread := hw.bytesOf.symm.trans (bytesOf_of_makeAbove hm hr)
  cases old with
  | none => cases hread
  | some before =>
    obtain rfl := Except.ok.inj hread
    exact hb.symm

/-- What could be read of a log is still there with the lines behind it. -/
theorem Holds.read_grown (h : Holds path t log) {lines : List Text}
    (h' : Holds path t' (log.grown lines)) {data : Bytes} (hr : t.bytesOf path = .ok data) :
    t'.bytesOf path = .ok (data ++ Text.utf8 lines.flatten) := by
  rw [h'.read, ← h.bytes_of_read hr]
  by_cases hl : lines = []
  · have hread := h.read.symm.trans hr
    rw [← h.bytes_of_read hr] at hread
    rw [Record.grown, if_pos hl, hread, hl]
    exact congrArg Except.ok (List.append_nil _).symm
  · rw [Record.grown, if_neg hl]

/-- A log in which something is can be read. -/
theorem Holds.bytesOf_grown {lines : List Text} (h : Holds path t (log.grown lines))
    (hl : lines ≠ []) : t.bytesOf path = .ok (log.bytes ++ Text.utf8 lines.flatten) := by
  rw [h.read, Record.grown, if_neg hl]

/-- These are all the paths at which an entry can be added. -/
theorem exists_holds_iff (hb : text.allBlank = false) :
    (∃ log, Holds path t log) ↔ ∃ t', append path secs tag text t = .ok () t' := by
  rw [append_entry hb]
  constructor
  · rintro ⟨log, ⟨t₁, old, hm, hw, -⟩, -⟩
    obtain ⟨names, n, -, ha, -⟩ := hw.modifyFile (· ++ (entry tag text secs).utf8)
    refine ⟨t₁.put names n, ?_⟩
    rw [bind_apply, hm]
    exact ha
  · rintro ⟨t', h⟩
    rw [bind_apply] at h
    cases hm : makeAbove path t with
    | error e t₁ => rw [hm] at h; cases h
    | ok _ t₁ =>
      rw [hm] at h
      obtain ⟨old, hw⟩ := FileTree.writable_of_modifyFile h
      exact ⟨⟨old.getD [], t.bytesOf path⟩, ⟨t₁, old, hm, hw, rfl⟩, rfl⟩

/-- Text that is not all blank makes an entry behind what the log held, and nothing of that changes. -/
theorem Holds.append (h : Holds path t log) (hb : text.allBlank = false) (secs : Nat)
    (tag : LogTag) :
    ∃ t', Journal.append path secs tag text t = .ok () t' ∧
      Holds path t' (log.grown [(line tag text secs).ended]) := by
  obtain ⟨t₁, old, hm, hw, hold⟩ := h.appendable
  obtain ⟨names, n, hn, ha, hw'⟩ := hw.modifyFile (· ++ (entry tag text secs).utf8)
  rw [hold, entry_eq] at hw'
  have hgrown : log.grown [(line tag text secs).ended] =
      ⟨log.bytes ++ Text.utf8 (line tag text secs).ended,
        .ok (log.bytes ++ Text.utf8 (line tag text secs).ended)⟩ := by
    rw [Record.grown, if_neg (List.cons_ne_nil _ _), List.flatten_singleton]
  refine ⟨t₁.put names n, ?_, ?_⟩
  · rw [append_entry hb, bind_apply, hm]
    exact ha
  · rw [hgrown]
    exact ⟨⟨_, _, makeAbove_put hm hn n, hw', rfl⟩, hw'.bytesOf⟩

/-- The entry that a text makes, unless it is all blank. -/
def kept (tag : LogTag) (text : Text) : List (LogTag × Text) :=
  if text.allBlank then [] else [(tag, text)]

/-- These are the entries as they are written, each with a date of its own. -/
def Dated (entries : List (LogTag × Text)) (lines : List Text) : Prop :=
  List.Forall₂ (fun e written => ∃ secs, written = (line e.1 e.2 secs).ended) entries lines

theorem Dated.append {entries more : List (LogTag × Text)} {lines others : List Text}
    (h : Dated entries lines) (h' : Dated more others) :
    Dated (entries ++ more) (lines ++ others) :=
  List.rel_append h h'

theorem Dated.ended {entries : List (LogTag × Text)} {lines : List Text}
    (h : Dated entries lines) : ∀ written ∈ lines, written.getLast? = some '\n' := by
  induction h with
  | nil => exact nofun
  | @cons e first _ _ he _ ih =>
    obtain ⟨secs, hfirst⟩ := he
    intro written hw
    obtain rfl | hw := List.mem_cons.mp hw
    · rw [hfirst]
      exact Text.getLast?_ended (line_ne_nil e.1 e.2 secs)
    · exact ih written hw

/-- Whatever the text is, it makes the entry that it should. -/
theorem Holds.adds (h : Holds path t log) (secs : Nat) (tag : LogTag) (text : Text) :
    ∃ t' lines, Journal.append path secs tag text t = .ok () t' ∧ Dated (kept tag text) lines ∧
      Holds path t' (log.grown lines) := by
  unfold kept
  cases hb : text.allBlank with
  | true => exact ⟨t, [], append_blank hb secs tag t, .nil, h⟩
  | false =>
    obtain ⟨t', ha, h'⟩ := h.append hb secs tag
    exact ⟨t', [(line tag text secs).ended], ha, .cons ⟨secs, rfl⟩ .nil, h'⟩

end Journal
end LineRepl
