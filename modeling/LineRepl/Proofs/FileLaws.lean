import LineRepl.Proofs.StoreLaws
import LineRepl.Proofs.StoredBytes

/-! Files as stores of text. Writing to a file that is there changes its bytes and nothing on the way
to it, so its path goes on to lead to it. Hence such a file obeys the laws of a store, and it can
fail only on a text that is larger than a file can be. -/
namespace LineRepl

open Attempt

/-! ## Trees -/

namespace FileTree

variable {t : FileTree} {p : Path} {names : List Text} {data : Bytes} {runnable : Bool}

theorem lookup_filter_ne {k l : List Text} (h : k ≠ l) (nodes : List (List Text × Node)) :
    (nodes.filter (·.1 != l)).lookup k = nodes.lookup k := by
  induction nodes with
  | nil => rfl
  | cons x nodes ih =>
    obtain ⟨m, n⟩ := x
    by_cases hm : m = l
    · subst hm
      have hk : (k == m) = false := beq_false_of_ne h
      simp [List.lookup_cons, hk, ih]
    · simp [List.lookup_cons, hm, ih]

theorem node?_put_self (h : names ≠ []) (n : Node) : (t.put names n).node? names = some n := by
  simp [node?, put, h]

theorem node?_put_of_ne {names' : List Text} (h : names' ≠ names) (n : Node) :
    (t.put names n).node? names' = t.node? names' := by
  have hb : (names' == names) = false := beq_false_of_ne h
  simp only [node?, put, List.lookup_cons, hb, lookup_filter_ne h]

/-- The root is a directory. -/
theorem names_ne_nil (h : t.node? names = some (.file data runnable)) : names ≠ [] := by
  rintro rfl
  cases h

/-- Both trees have a file at this place, and they are the same elsewhere. -/
structure Beside (place : List Text) (t u : FileTree) : Prop where
  left : ∃ data runnable, t.node? place = some (.file data runnable)
  right : ∃ data runnable, u.node? place = some (.file data runnable)
  current : u.current = t.current
  elsewhere {other : List Text} (h : other ≠ place) : u.node? other = t.node? other

theorem beside_put (h : t.node? names = some (.file data runnable)) (new : Bytes)
    (runnable' : Bool) : Beside names t (t.put names (.file new runnable')) where
  left := ⟨data, runnable, h⟩
  right := ⟨new, runnable', node?_put_self (names_ne_nil h) _⟩
  current := rfl
  elsewhere hne := node?_put_of_ne hne _

/-- No path leads through a file, so what a file holds does not matter to where paths lead. -/
theorem Beside.follow {u : FileTree} (h : Beside names t u) (here fs : List Text) :
    u.follow here fs = t.follow here fs := by
  induction fs generalizing here with
  | nil => rfl
  | cons f fs ih =>
    by_cases hn : here = names
    · obtain ⟨data, runnable, hl⟩ := h.left
      obtain ⟨data', runnable', hr⟩ := h.right
      subst hn
      simp only [FileTree.follow, hl, hr]
    · simp only [FileTree.follow, h.elsewhere hn, ih]

theorem Beside.locate {u : FileTree} (h : Beside names t u) (p : Path) :
    u.locate p = t.locate p := by
  simp only [FileTree.locate, h.follow, h.current]

theorem bytesOf_eq_ok :
    t.bytesOf p = .ok data ↔
      ∃ names runnable, t.locate p = .ok names ∧ t.node? names = some (.file data runnable) := by
  unfold bytesOf stat
  constructor
  · intro h
    cases hl : t.locate p with
    | error e =>
      rw [hl] at h
      cases h
    | ok names =>
      cases hn : t.node? names with
      | none =>
        simp only [hl, hn] at h
        cases h
      | some n =>
        simp only [hl, hn] at h
        cases n with
        | directory => cases h
        | file data' runnable =>
          obtain rfl := Except.ok.inj h
          exact ⟨names, runnable, rfl, hn⟩
  · rintro ⟨names, runnable, hl, hn⟩
    simp only [hl, hn]

theorem bytesOf_put (hl : t.locate p = .ok names)
    (hn : t.node? names = some (.file data runnable)) (new : Bytes) :
    (t.put names (.file new runnable)).bytesOf p = .ok new :=
  bytesOf_eq_ok.mpr ⟨names, runnable, ((beside_put hn new _).locate p).trans hl,
    node?_put_self (names_ne_nil hn) _⟩

/-- After a slash at its end a path leads to a directory, if anywhere. -/
theorem directory_of_follow {here fs : List Text} (h : t.follow here (fs ++ [[]]) = .ok names) :
    t.node? names = some .directory := by
  induction fs generalizing here with
  | nil =>
    simp only [List.nil_append, follow] at h
    split at h
    · cases h
    · cases h
    · rename_i hd
      obtain rfl : here = names := by simpa using h
      exact hd
  | cons f fs ih =>
    simp only [List.cons_append, follow] at h
    split at h
    · cases h
    · cases h
    · split at h
      · exact ih h
      · split at h
        · exact ih h
        · split at h
          · cases h
          · exact ih h

theorem fields_append_separator (c : Char) (x : Text) :
    Text.fields c (x ++ [c]) = Text.fields c x ++ [[]] := Text.fields_append x []

/-- A file that is found at a path is also the one that is opened for writing. -/
theorem fileTarget_of_locate (hl : t.locate p = .ok names)
    (hn : t.node? names = some (.file data runnable)) : t.fileTarget p = .ok names := by
  have hslash : p.text.getLast? ≠ some '/' := by
    intro he
    obtain ⟨x, hx⟩ := List.getLast?_eq_some_iff.mp he
    have hd : t.node? names = some .directory := by
      simp only [locate, hx, fields_append_separator] at hl
      split at hl
      · cases hl
      · split at hl
        · cases hl
        · generalize hf : t.follow _ _ = r at hl
          cases r with
          | error e => cases hl
          | ok names' =>
            obtain rfl : names' = names := Except.ok.inj hl
            exact directory_of_follow hf
    rw [hn] at hd
    cases hd
  rw [fileTarget, if_neg hslash, hl]

theorem modifyFile_of_file (hl : t.locate p = .ok names)
    (hn : t.node? names = some (.file data runnable)) (f : Bytes → Bytes) :
    modifyFile p f t = .ok () (t.put names (.file (f data) runnable)) := by
  simp only [modifyFile, fileTarget_of_locate hl hn, hn]

theorem resizeFile_of_file (hl : t.locate p = .ok names)
    (hn : t.node? names = some (.file data runnable)) (size : Nat) :
    resizeFile p size t = .ok () (t.put names
      (.file (data.take size ++ List.replicate (size - data.length) 0) runnable)) := by
  simp only [resizeFile, hl, hn]

theorem modifyFile_of_bytesOf (h : t.bytesOf p = .ok data) (f : Bytes → Bytes) :
    ∃ t', modifyFile p f t = .ok () t' ∧ t'.bytesOf p = .ok (f data) := by
  obtain ⟨names, runnable, hl, hn⟩ := bytesOf_eq_ok.mp h
  exact ⟨_, modifyFile_of_file hl hn f, bytesOf_put hl hn _⟩

theorem resizeFile_of_bytesOf (h : t.bytesOf p = .ok data) (size : Nat) :
    ∃ t', resizeFile p size t = .ok () t' ∧
      t'.bytesOf p = .ok (data.take size ++ List.replicate (size - data.length) 0) := by
  obtain ⟨names, runnable, hl, hn⟩ := bytesOf_eq_ok.mp h
  exact ⟨_, resizeFile_of_file hl hn size, bytesOf_put hl hn _⟩

end FileTree

/-! ## The file as a store -/

namespace FileStore

/-- The file at the path is there and its bytes are those of the text. -/
def Holds (path : Path) (s : FileStore) (t : Text) : Prop :=
  s.path = path ∧ s.tree.bytesOf path = .ok t.utf8

/-- No file is that large. -/
def TooLarge (t : Text) : Prop := offsetLimit ≤ t.byteSize

variable {path : Path} {s : FileStore} {t u : Text}

theorem tooLarge_append (h : TooLarge t) (u : Text) : TooLarge (t ++ u) := by
  unfold TooLarge at h ⊢
  rw [Text.byteSize_append]
  omega

theorem load_ends (h : Holds path s t) :
    Ends load s (fun u s => u = t ∧ Holds path s t) fun _ s => TooLarge t ∧ Holds path s t := by
  obtain ⟨rfl, hb⟩ := h
  unfold Ends load
  simp only [hb, Text.text?_utf8]
  exact ⟨trivial, rfl, hb⟩

/-- The file at the path is there and has these bytes, text or not. -/
def HoldsBytes (path : Path) (s : FileStore) (data : Bytes) : Prop :=
  s.path = path ∧ s.tree.bytesOf path = .ok data

/-- A call that changes the tree keeps to the file. -/
theorem onTree_ends {act : FileTree.Action Unit} {error : IoError → FileStore → Prop} {data : Bytes}
    (hp : s.path = path)
    (h : ∃ tree, act s.tree = .ok () tree ∧ tree.bytesOf path = .ok data) :
    Ends (onTree act) s (fun _ s => HoldsBytes path s data) error := by
  obtain ⟨tree, ha, hd⟩ := h
  simp only [Ends, onTree, within_apply, ha]
  exact ⟨hp, hd⟩

theorem truncate_ends (h : Holds path s (t ++ u)) :
    Ends (truncate t.byteSize) s (fun _ s => Holds path s t)
      fun _ s => TooLarge (t ++ u) ∧ Holds path s (t ++ u) := by
  obtain ⟨rfl, hb⟩ := h
  by_cases hs : t.byteSize < offsetLimit
  · have hcut : (Text.utf8 (t ++ u)).take t.byteSize ++
        List.replicate (t.byteSize - (Text.utf8 (t ++ u)).length) 0 = t.utf8 := by
      have hle : t.byteSize - (t ++ u).byteSize = 0 := by
        rw [Text.byteSize_append]
        omega
      rw [Text.take_utf8, Text.length_utf8, hle, List.replicate_zero, List.append_nil]
    have hr := FileTree.resizeFile_of_bytesOf hb t.byteSize
    rw [hcut] at hr
    unfold Ends truncate
    simp only [if_pos hs]
    exact onTree_ends rfl hr
  · obtain ⟨tree, hr, -⟩ := FileTree.resizeFile_of_bytesOf hb 0
    unfold Ends truncate
    simp only [if_neg hs, hr]
    exact ⟨tooLarge_append (Nat.le_of_not_lt hs) u, rfl, hb⟩

theorem readLineAt_ends (h : Holds path s (t ++ u)) :
    Ends (readLineAt t.byteSize) s (fun r s => r = u.firstPiece ∧ Holds path s (t ++ u))
      fun _ s => TooLarge (t ++ u) ∧ Holds path s (t ++ u) := by
  obtain ⟨rfl, hb⟩ := h
  unfold Ends readLineAt
  by_cases hs : t.byteSize < offsetLimit
  · simp only [hb, if_pos hs, lineBytes_append_utf8, Text.text?_utf8]
    exact ⟨trivial, rfl, hb⟩
  · simp only [hb, if_neg hs]
    exact ⟨tooLarge_append (Nat.le_of_not_lt hs) u, rfl, hb⟩

/-- A file that is there keeps its text, and no call fails unless the text is too large. -/
theorem keeps (path : Path) : Keeps TooLarge (Holds path) where
  load h := load_ends h
  replace u h := onTree_ends h.1 (h.1 ▸ FileTree.modifyFile_of_bytesOf h.2 fun _ => u.utf8)
  append {s t} u h := by
    obtain ⟨rfl, hb⟩ := h
    have ha := FileTree.modifyFile_of_bytesOf hb (· ++ u.utf8)
    rw [← Text.utf8_append] at ha
    exact onTree_ends rfl ha
  truncate h := truncate_ends h
  readLineAt _ h := readLineAt_ends h

end FileStore
end LineRepl
