import LineRepl.Proofs.Lockstep
import LineRepl.Proofs.LogFiles

/-! A source file and a log in one tree. What is written to the one file is not written to the other,
and since no path leads through a file, all paths lead where they led. A log may need directories that
are not there yet; they can be made after the source file was written just as they could before. So both
files are kept, as long as the log is not written to the source file. -/
namespace LineRepl

open Attempt

/-! ## Trees that differ in one file -/

namespace FileTree

variable {t u : FileTree} {place names : List Text} {p : Path} {old : Option Bytes}

theorem Beside.node?_eq_none (h : Beside place t u) :
    u.node? names = none ↔ t.node? names = none := by
  by_cases hn : names = place
  · obtain ⟨data, runnable, hl⟩ := h.left
    obtain ⟨data', runnable', hr⟩ := h.right
    subst hn
    simp only [hl, hr, reduceCtorEq]
  · rw [h.elsewhere hn]

theorem Beside.node?_eq_directory (h : Beside place t u) :
    u.node? names = some .directory ↔ t.node? names = some .directory := by
  by_cases hn : names = place
  · obtain ⟨data, runnable, hl⟩ := h.left
    obtain ⟨data', runnable', hr⟩ := h.right
    subst hn
    simp only [hl, hr, Option.some.injEq, reduceCtorEq]
  · rw [h.elsewhere hn]

theorem Beside.ne_place (h : Beside place t u) (hn : t.node? names = none) : names ≠ place := by
  obtain ⟨data, runnable, hl⟩ := h.left
  intro heq
  subst heq
  cases hn.symm.trans hl

/-- What is put elsewhere is put in both. -/
theorem Beside.put (h : Beside place t u) (hne : names ≠ place) (n : Node) :
    Beside place (t.put names n) (u.put names n) where
  left := by
    rw [node?_put_of_ne hne.symm]
    exact h.left
  right := by
    rw [node?_put_of_ne hne.symm]
    exact h.right
  current := h.current
  elsewhere {other} ho := by
    by_cases he : other = names
    · by_cases hroot : names = []
      · rw [he, hroot]
        rfl
      · rw [he, node?_put_self hroot, node?_put_self hroot]
    · rw [node?_put_of_ne he, node?_put_of_ne he, h.elsewhere ho]

theorem Beside.isDirectory (h : Beside place t u) (p : Path) : u.isDirectory p = t.isDirectory p := by
  rw [Bool.eq_iff_iff, isDirectory_iff, isDirectory_iff]
  simp only [h.locate, h.node?_eq_directory]

theorem Beside.stat (h : Beside place t u) (hp : t.locate p ≠ .ok place) :
    u.stat p = t.stat p := by
  unfold FileTree.stat
  rw [h.locate]
  cases hl : t.locate p with
  | error e => rfl
  | ok names =>
    have hne : names ≠ place := by
      intro heq
      subst heq
      exact hp hl
    dsimp only
    rw [h.elsewhere hne]

theorem Beside.fileTarget (h : Beside place t u) (p : Path) : u.fileTarget p = t.fileTarget p := by
  by_cases hp : t.locate (withoutSlash p) = .ok place
  · obtain ⟨data, runnable, hl⟩ := h.left
    obtain ⟨data', runnable', hr⟩ := h.right
    simp only [FileTree.fileTarget, FileTree.stat, h.locate, hp, hl, hr]
  · simp only [FileTree.fileTarget, h.locate, h.stat hp]

theorem Beside.bytesOf (h : Beside place t u) (hp : t.locate p ≠ .ok place) :
    u.bytesOf p = t.bytesOf p := by
  simp only [FileTree.bytesOf, h.stat hp]

theorem Beside.writable (h : Beside place t u) (hp : t.locate p ≠ .ok place)
    (hw : t.Writable p old) : u.Writable p old := by
  obtain ⟨names, runnable, ht, hn⟩ := hw
  have hne : names ≠ place := by
    intro heq
    subst heq
    exact hp (locate_of_fileTarget ht)
  exact ⟨names, runnable, (h.fileTarget p).trans ht, (h.elsewhere hne).trans hn⟩

theorem makeDirectory_jointly (place : List Text) (p : Path) :
    Jointly (Beside place) (Beside place) (makeDirectory p) (makeDirectory p) := by
  intro t u h
  simp only [makeDirectory, h.locate]
  cases t.locate _ with
  | error e => exact ⟨rfl, h⟩
  | ok names =>
    cases hn : t.node? names with
    | none =>
      simp only [hn, h.node?_eq_none.mpr hn]
      exact ⟨rfl, h.put (h.ne_place hn) _⟩
    | some n =>
      have hne : u.node? names ≠ none := by
        intro hu
        cases hn.symm.trans (h.node?_eq_none.mp hu)
      obtain ⟨m, hm⟩ := Option.ne_none_iff_exists'.mp hne
      simp only [hn, hm]
      exact ⟨rfl, h⟩

theorem makeDirectoriesWithin_jointly (place : List Text) (n : Nat) (p : Path) :
    Jointly (Beside place) (Beside place) (makeDirectoriesWithin n p)
      (makeDirectoriesWithin n p) := by
  induction n generalizing p with
  | zero => exact fun t u h => ⟨rfl, h⟩
  | succ n ih =>
    intro t u h
    unfold makeDirectoriesWithin
    split_ifs
    · exact ⟨rfl, h⟩
    · obtain ⟨_, t₁, u₁, ht, hu, h₁⟩ | ⟨e, t₁, u₁, ht, hu, h₁⟩ :=
        (makeDirectory_jointly place p h).cases
      · rw [ht, hu]
        exact ⟨rfl, h₁⟩
      · rw [ht, hu]
        dsimp only
        rw [h₁.isDirectory]
        split_ifs
        · cases p.parent? with
          | none => exact ⟨rfl, h₁⟩
          | some q =>
            dsimp only
            obtain ⟨_, t₂, u₂, ht, hu, h₂⟩ | ⟨e, t₂, u₂, ht, hu, h₂⟩ := (ih q h₁).cases
            · rw [ht, hu]
              dsimp only
              obtain ⟨_, t₃, u₃, ht, hu, h₃⟩ | ⟨e, t₃, u₃, ht, hu, h₃⟩ :=
                (makeDirectory_jointly place p h₂).cases
              · rw [ht, hu]
                exact ⟨rfl, h₃⟩
              · rw [ht, hu]
                dsimp only
                rw [h₃.isDirectory]
                split_ifs
                all_goals exact ⟨rfl, h₃⟩
            · rw [ht, hu]
              exact ⟨rfl, h₂⟩
        all_goals exact ⟨rfl, h₁⟩

/-- A file is changed where its path leads, and nothing else is. -/
theorem modifyFile_ends (p : Path) (f : Bytes → Bytes) (t : FileTree) :
    Ends (modifyFile p f) t
      (fun _ t' => ∃ names n, t.locate p = .ok names ∧ t.node? names ≠ some .directory ∧
        t' = t.put names n)
      fun _ _ => True := by
  unfold Ends modifyFile
  cases ht : t.fileTarget p with
  | error e => trivial
  | ok names =>
    dsimp only
    have hl := locate_of_fileTarget ht
    cases hn : t.node? names with
    | none => exact ⟨names, _, hl, hn ▸ nofun, rfl⟩
    | some m =>
      cases m with
      | directory => trivial
      | file data runnable => exact ⟨names, _, hl, hn ▸ nofun, rfl⟩

end FileTree

/-! ## The log -/

namespace Journal

open FileTree (Beside)

variable {path p : Path} {t t' u : FileTree} {place : List Text} {log : Record}

theorem makeAbove_jointly (place : List Text) (path : Path) :
    Jointly (Beside place) (Beside place) (makeAbove path) (makeAbove path) := by
  unfold makeAbove
  cases path.parent? with
  | none => exact .pure ()
  | some dir => exact FileTree.makeDirectoriesWithin_jointly place _ dir

/-- Where a path led somewhere it still does when the directories above another one are made. -/
theorem locate_of_makeAbove (h : makeAbove path t = .ok () t') (hl : t.locate p = .ok place) :
    t'.locate p = .ok place :=
  makeAbove_keeps (I := fun t => t.locate p = .ok place)
    (fun hn => FileTree.locate_put_of_ok (hn ▸ nofun) .directory) h hl

theorem node?_of_makeAbove {n : Node} (h : makeAbove path t = .ok () t')
    (hn : t.node? place = some n) : t'.node? place = some n := by
  refine makeAbove_keeps (I := fun t => t.node? place = some n) ?_ h hn
  intro t names hfree hn
  have hne : place ≠ names := by
    intro heq
    subst heq
    cases hfree.symm.trans hn
  exact (FileTree.node?_put_of_ne hne _).trans hn

/-- The log is not at this place, also not once the directories above it are made. -/
def Avoids (path : Path) (place : List Text) (t : FileTree) : Prop :=
  ∀ ⦃t'⦄, makeAbove path t = .ok () t' → t'.locate path ≠ .ok place

theorem Avoids.of_beside {other : List Text} (ha : Avoids path place t) (h : Beside other t u) :
    Avoids path place u := by
  intro u' hu
  obtain ⟨_, t₁, u₁, ht, hu₁, h₁⟩ | ⟨e, t₁, u₁, -, hu₁, -⟩ := (makeAbove_jointly other path h).cases
  · cases hu₁.symm.trans hu
    rw [h₁.locate]
    exact ha ht
  · cases hu₁.symm.trans hu

/-- What is written elsewhere leaves the log. -/
theorem Holds.of_beside (hl : Holds path t log) (ha : Avoids path place t) (h : Beside place t u) :
    Holds path u log := by
  obtain ⟨⟨t', old, hm, hw, hb⟩, hr⟩ := hl
  have hplace : t.locate path ≠ .ok place := fun he => ha hm (locate_of_makeAbove hm he)
  obtain ⟨_, t₁, u₁, ht, hu, h₁⟩ | ⟨e, t₁, u₁, ht, -, -⟩ := (makeAbove_jointly place path h).cases
  · cases ht.symm.trans hm
    exact ⟨⟨u₁, old, hu, h₁.writable (ha hm) hw, hb⟩, (h.bytesOf hplace).trans hr⟩
  · cases ht.symm.trans hm

/-- A path leads to a file at this place, which is not the one of the log. -/
structure Spares (path p : Path) (place : List Text) (n : Node) (t : FileTree) : Prop where
  located : t.locate p = .ok place
  node : t.node? place = some n
  avoids : Avoids path place t

/-- What is logged is not written to that file. -/
theorem Spares.append {n : Node} (h : Spares path p place n t) (secs : Nat) (tag : LogTag)
    (text : Text) :
    Ends (Journal.append path secs tag text) t (fun _ t' => Spares path p place n t')
      fun _ _ => True := by
  cases hb : text.allBlank with
  | true =>
    rw [Ends, append_blank hb]
    exact h
  | false =>
    rw [append_entry hb]
    refine (Ends.ran (x := makeAbove path) .any).bind ?_ fun _ _ _ => trivial
    intro _ t₁ hend
    have hm := hend.1
    have hl := locate_of_makeAbove hm h.located
    have hn := node?_of_makeAbove hm h.node
    refine (FileTree.modifyFile_ends path _ t₁).mono ?_ fun _ _ => id
    intro _ _ hend
    obtain ⟨names, n, hpath, hdir, rfl⟩ := hend
    have hne : place ≠ names := by
      intro heq
      subst heq
      exact h.avoids hm hpath
    refine ⟨FileTree.locate_put_of_ok hdir n hl, (FileTree.node?_put_of_ne hne n).trans hn, ?_⟩
    intro t₂ hm₂
    -- no directory is missing any more
    cases (makeAbove_put hm hdir n).symm.trans hm₂
    rw [FileTree.locate_put_of_ok hdir n hpath]
    exact fun he => hne (Except.ok.inj he).symm

theorem Spares.of_beside {other : List Text} {n : Node} (h : Spares path p place n t)
    (hne : place ≠ other) (hb : Beside other t u) : Spares path p place n u :=
  ⟨(hb.locate p).trans h.located, (hb.elsewhere hne).trans h.node, h.avoids.of_beside hb⟩

/-- What is written to that file leaves it apart from the log. -/
theorem Spares.rewritten {data : Bytes} {runnable : Bool}
    (h : Spares path p place (.file data runnable) t) (new : Bytes) :
    Spares path p place (.file new runnable) (t.put place (.file new runnable)) := by
  have hb := FileTree.beside_put h.node new runnable
  exact ⟨(hb.locate p).trans h.located, FileTree.node?_put_self (FileTree.names_ne_nil h.node) _,
    h.avoids.of_beside hb⟩

end Journal

/-! ## The source file -/

namespace FileStore

variable {source path : Path}

/-- The store is the file at `source`, and the log at `path` is not written to it. -/
def Apart (source path : Path) (s : FileStore) : Prop :=
  s.path = source ∧
    ∃ place data runnable, Journal.Spares path source place (.file data runnable) s.tree

theorem Apart.bytesOf {s : FileStore} (h : Apart source path s) :
    ∃ data, s.tree.bytesOf s.path = .ok data := by
  obtain ⟨rfl, place, data, runnable, hs⟩ := h
  exact ⟨data, FileTree.bytesOf_eq_ok.mpr ⟨place, runnable, hs.located, hs.node⟩⟩

/-- What is written to the source file leaves `I`. -/
def OutOfReach (source path : Path) (I : FileTree → Prop) : Prop :=
  ∀ ⦃t place data runnable⦄ (new : Bytes), Journal.Spares path source place (.file data runnable) t →
    I t → I (t.put place (.file new runnable))

theorem OutOfReach.and {I J : FileTree → Prop} (hI : OutOfReach source path I)
    (hJ : OutOfReach source path J) : OutOfReach source path fun t => I t ∧ J t :=
  fun _ _ _ _ new hs h => ⟨hI new hs h.1, hJ new hs h.2⟩

theorem log_outOfReach (source path : Path) (log : Journal.Record) :
    OutOfReach source path fun t => Journal.Holds path t log := by
  intro t place data runnable new hs hl
  exact hl.of_beside hs.avoids (FileTree.beside_put hs.node new runnable)

/-- Another file. -/
theorem file_outOfReach (source path p : Path) (place : List Text) (n : Node) :
    OutOfReach source path fun t =>
      Journal.Spares path p place n t ∧ t.locate source ≠ .ok place := by
  intro t other data runnable new hs h
  obtain ⟨hp, hne⟩ := h
  have hb := FileTree.beside_put hs.node new runnable
  have ho : place ≠ other := by
    intro heq
    subst heq
    exact hne hs.located
  exact ⟨hp.of_beside ho hb, (hb.locate source).symm ▸ hne⟩

section Calls

variable {I : FileTree → Prop} (hI : OutOfReach source path I) {s : FileStore}
include hI

/-- A change of the file at its own place. -/
theorem OutOfReach.onTree {act : FileTree.Action Unit}
    (hact : ∀ {place data runnable}, s.tree.locate s.path = .ok place →
      s.tree.node? place = some (.file data runnable) →
        ∃ new, act s.tree = .ok () (s.tree.put place (.file new runnable)))
    (h : Apart source path s ∧ I s.tree) :
    Ends (onTree act) s (fun _ s => Apart source path s ∧ I s.tree)
      fun _ s => Apart source path s ∧ I s.tree := by
  obtain ⟨⟨rfl, place, data, runnable, hs⟩, hi⟩ := h
  obtain ⟨new, ha⟩ := hact hs.located hs.node
  simp only [Ends, FileStore.onTree, within_apply, ha]
  exact ⟨⟨rfl, place, new, runnable, hs.rewritten new⟩, hI new hs hi⟩

/-- Each call of the store leaves it, and the file where it is. -/
theorem OutOfReach.stable : Stable fun s => Apart source path s ∧ I s.tree where
  load {s} h := by
    obtain ⟨data, hd⟩ := h.1.bytesOf
    show Ends load s _ _
    simp only [Ends, load, hd]
    cases data.text? with
    | some t => exact h
    | none => exact h
  replace u h := hI.onTree (fun hl hn => ⟨_, FileTree.modifyFile_of_file hl hn _⟩) h
  append u h := hI.onTree (fun hl hn => ⟨_, FileTree.modifyFile_of_file hl hn _⟩) h
  truncate {s} size h := by
    obtain ⟨data, hd⟩ := h.1.bytesOf
    obtain ⟨tree, hr, -⟩ := FileTree.resizeFile_of_bytesOf hd 0
    show Ends (truncate size) s _ _
    unfold Ends truncate
    by_cases hs : size < offsetLimit
    · rw [if_pos hs]
      exact hI.onTree (fun hl hn => ⟨_, FileTree.resizeFile_of_file hl hn size⟩) h
    · rw [if_neg hs, hr]
      exact h
  readLineAt {s} offset h := by
    obtain ⟨data, hd⟩ := h.1.bytesOf
    show Ends (readLineAt offset) s _ _
    simp only [Ends, readLineAt, hd]
    by_cases hs : offset < offsetLimit
    · rw [if_pos hs]
      cases (lineBytes offset data).text? with
      | some t => exact h
      | none => exact h
    · rw [if_neg hs]
      exact h

end Calls

/-- What is logged leaves the source file what and where it was, and apart from the log. -/
theorem Apart.append {s : FileStore} (h : Apart source path s) (secs : Nat) (tag : LogTag)
    (text : Text) :
    Ends (Journal.append path secs tag text) s.tree
      (fun _ tree => Apart source path ⟨tree, s.path⟩ ∧ tree.locate source = s.tree.locate source ∧
        tree.bytesOf source = s.tree.bytesOf source)
      fun _ _ => True := by
  obtain ⟨hp, place, data, runnable, hs⟩ := h
  refine (hs.append secs tag text).mono ?_ fun _ _ => id
  intro _ tree hs'
  have hbytes : s.tree.bytesOf source = .ok data :=
    FileTree.bytesOf_eq_ok.mpr ⟨place, runnable, hs.located, hs.node⟩
  have hbytes' : tree.bytesOf source = .ok data :=
    FileTree.bytesOf_eq_ok.mpr ⟨place, runnable, hs'.located, hs'.node⟩
  exact ⟨⟨hp, place, data, runnable, hs'⟩, hs'.located.trans hs.located.symm,
    hbytes'.trans hbytes.symm⟩

end FileStore
end LineRepl
