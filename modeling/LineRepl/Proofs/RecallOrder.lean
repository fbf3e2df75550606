import LineRepl.Proofs.RememberedLines
import Mathlib.Data.Nat.ModEq

/-! The order in which lines are recalled. How far the recall cursor has gone back is counted in slots
from the one that was filled last, and so many lines back the line under it is found. A walk back over
lines that are not empty gives them newest first; where it comes to an empty slot it turns round and
gives the line before that slot from then on, and in a full ring it goes round. -/
namespace LineRepl.HistoryRing

variable {n a j : Nat} {r : HistoryRing} {lines : List Text}

/-! ## How far back the cursor is -/

/-- The recall cursor stands `a` slots before the slot that was filled last. To go round changes
nothing. -/
def Behind (r : HistoryRing) (a : Nat) : Prop := (r.get + a + 1) % r.slots.size = r.put

theorem behind_submit (r : HistoryRing) (line : Text) : (r.submit line).Behind 0 := by
  show (r.put + 0 + 1) % (r.slots.set r.put line r.put_lt).size = (r.put + 1) % r.slots.size
  rw [Array.size_set, Nat.add_zero]

theorem recalled_submit (r : HistoryRing) (line : Text) : (r.submit line).recalled = line :=
  Array.getElem_set_self r.put_lt

theorem Behind.moveBack (h : r.Behind a) : r.moveBack.Behind (a + 1) := by
  have hg : r.get + r.slots.size - 1 + (a + 1 + 1) = r.get + a + 1 + r.slots.size := by
    have := r.size_pos
    omega
  show ((r.get + r.slots.size - 1) % r.slots.size + (a + 1) + 1) % r.slots.size = r.put
  rw [Nat.add_assoc, Nat.mod_add_mod, hg, Nat.add_mod_right]
  exact h

theorem Behind.moveForward (h : r.Behind (a + 1)) : r.moveForward.Behind a := by
  have hg : r.get + 1 + (a + 1) = r.get + (a + 1) + 1 := by omega
  show ((r.get + 1) % r.slots.size + a + 1) % r.slots.size = r.put
  rw [Nat.add_assoc, Nat.mod_add_mod, hg]
  exact h

theorem behind_mod : r.Behind (a % r.slots.size) ↔ r.Behind a := by
  unfold Behind
  rw [Nat.add_right_comm, Nat.add_mod_mod, Nat.add_right_comm]

theorem moveBack_moveForward (r : HistoryRing) : r.moveForward.moveBack = r := by
  obtain ⟨slots, put, get, hp, hg⟩ := r
  have hm : ((get + 1) % slots.size + slots.size - 1) % slots.size = get := by
    rw [Nat.add_sub_assoc (by omega), Nat.mod_add_mod, Nat.add_assoc, Nat.add_sub_of_le (by omega),
      Nat.add_mod_right, Nat.mod_eq_of_lt hg]
  simp only [moveForward, moveBack, stepForward, stepBack, hm]

/-! ## The line so far back -/

/-- The line that was submitted `a` lines before the last one; empty if there is none. -/
def ago (lines : List Text) (a : Nat) : Text := lines.reverse.getD a []

theorem ago_of_lt (h : a < lines.length) : lines[lines.length - 1 - a]? = some (ago lines a) := by
  have hr : a < lines.reverse.length := by rwa [List.length_reverse]
  rw [ago, List.getD_eq_getElem?_getD, ← List.getElem?_reverse h, List.getElem?_eq_getElem hr]
  rfl

theorem ago_of_le (h : lines.length ≤ a) : ago lines a = [] := by
  rw [ago, List.getD_eq_getElem?_getD, List.getElem?_eq_none (by rwa [List.length_reverse])]
  rfl

/-- A ring of `n` slots to which these lines were submitted, with the recall cursor `a` slots back. -/
structure Reaches (n : Nat) (lines : List Text) (a : Nat) (r : HistoryRing) : Prop extends
    Remembers n lines r where
  behind : r.Behind a

theorem Reaches.recalled (h : Reaches n lines a r) (ha : a < n) : r.recalled = ago lines a := by
  have hs : Latest n lines r.get r.recalled := h.slot r.get_lt
  have hb : r.get + (a + 1) ≡ lines.length [MOD n] := by
    rw [Nat.ModEq, ← h.put, ← h.behind, h.size, Nat.add_assoc]
  by_cases hk : a < lines.length
  · have hc : lines.length - 1 - a + (a + 1) = lines.length := by omega
    have hm : (lines.length - 1 - a) % n = r.get % n :=
      Nat.ModEq.add_right_cancel' (a + 1) (by rw [hc]; exact hb.symm)
    have hg : r.get % n = r.get := Nat.mod_eq_of_lt (h.size ▸ r.get_lt)
    rw [← hg, ← hm] at hs
    have hl := hs.eq_of_recent (by omega) (by omega)
    exact Option.some.inj (hl.symm.trans (ago_of_lt hk))
  · rw [ago_of_le (Nat.le_of_not_lt hk)]
    obtain ⟨j, hj, hm, -⟩ | ⟨-, he⟩ := hs
    · have hlt : j < lines.length := (List.getElem?_eq_some_iff.mp hj).1
      have hsame : (j + (a + 1)) % n = lines.length % n := by
        rw [← hm, Nat.ModEq, Nat.mod_add_mod] at hb
        exact hb
      have := eq_of_mod_eq (by omega) (by omega) hsame
      omega
    · exact he

theorem reaches_submit (capacity : Nat) (uses : List Use) (last : Text) :
    Reaches (max capacity 1) (uses.filterMap Use.line? ++ [last]) 0
      ((uses.foldl HistoryRing.after (ofCapacity capacity)).submit last) :=
  ⟨((remembers_ofCapacity capacity).foldl uses).submit last, behind_submit _ last⟩

theorem Reaches.moveBack (h : Reaches n lines a r) : Reaches n lines (a + 1) r.moveBack :=
  ⟨h.of_sameLines ⟨rfl, rfl⟩, h.behind.moveBack⟩

theorem Reaches.moveForward (h : Reaches n lines (a + 1) r) : Reaches n lines a r.moveForward :=
  ⟨h.of_sameLines ⟨rfl, rfl⟩, h.behind.moveForward⟩

/-- To go round changes nothing. -/
theorem reaches_mod : Reaches n lines (a % n) r ↔ Reaches n lines a r := by
  constructor
  · intro h
    exact ⟨h.toRemembers, behind_mod.mp (h.size.symm ▸ h.behind)⟩
  · intro h
    refine ⟨h.toRemembers, ?_⟩
    rw [← h.size, behind_mod]
    exact h.behind

theorem reaches_round : Reaches n lines n r ↔ Reaches n lines 0 r := by
  rw [← reaches_mod, Nat.mod_self]

/-! ## One recall -/

/-- A line that is there is given, and the cursor goes one further back. -/
theorem Reaches.previous_of_line (h : Reaches n lines a r) (hne : ago lines (a % n) ≠ []) :
    r.recallPrevious.1 = ago lines (a % n) ∧ Reaches n lines (a + 1) r.recallPrevious.2 := by
  have hr := (reaches_mod.mpr h).recalled (Nat.mod_lt _ (h.size ▸ r.size_pos))
  rw [recallPrevious, hr, if_neg (by simpa using hne)]
  exact ⟨rfl, h.moveBack⟩

/-- At an empty slot the cursor turns round to the line after it. -/
theorem Reaches.previous_of_gap (h : Reaches n lines (a + 1) r) (hgap : ago lines ((a + 1) % n) = [])
    (ha : a < n) (hne : ago lines a ≠ []) :
    r.recallPrevious.1 = ago lines a ∧ Reaches n lines a r.recallPrevious.2 := by
  have hr := (reaches_mod.mpr h).recalled (Nat.mod_lt _ (h.size ▸ r.size_pos))
  have hf := h.moveForward.recalled ha
  rw [recallPrevious, hr, hgap, if_pos List.isEmpty_nil, recallNext, hf, if_neg (by simpa using hne)]
  exact ⟨rfl, h.moveForward⟩

/-- Nothing is found on either side. -/
theorem Reaches.next_of_gap (h : Reaches n lines (a + 1) r) (ha : a < n) (hnil : ago lines a = []) :
    r.recallNext = ([], r) := by
  have hf := h.moveForward.recalled ha
  rw [recallNext, hf, hnil, if_pos List.isEmpty_nil, moveBack_moveForward]

/-! ## Many recalls -/

/-- The ring after the previous line was recalled so many times. -/
def back (r : HistoryRing) : Nat → HistoryRing
  | 0 => r
  | j + 1 => (r.back j).recallPrevious.2

/-- The ring after the next line was recalled so many times. -/
def forth (r : HistoryRing) : Nat → HistoryRing
  | 0 => r
  | j + 1 => (r.forth j).recallNext.2

/-- Over lines that are not empty a walk goes one back each time, round the ring if it is full. -/
theorem Reaches.back (h : Reaches n lines 0 r) (hne : ∀ i < j, ago lines (i % n) ≠ []) :
    Reaches n lines j (r.back j) := by
  induction j with
  | zero => exact h
  | succ j ih =>
    have hj := ih fun i hi => hne i (by omega)
    exact (hj.previous_of_line (hne j (by omega))).2

/-- A walk that has come to an empty slot stands there or at the line after it. -/
def Turns (n : Nat) (lines : List Text) (a : Nat) (r : HistoryRing) : Prop :=
  Reaches n lines (a + 1) r ∨ Reaches n lines a r

theorem Turns.previous (h : Turns n lines a r) (ha : a < n)
    (hgap : ago lines ((a + 1) % n) = []) (hne : ago lines a ≠ []) :
    r.recallPrevious.1 = ago lines a ∧ Turns n lines a r.recallPrevious.2 := by
  rcases h with h | h
  · obtain ⟨hl, hr⟩ := h.previous_of_gap hgap ha hne
    exact ⟨hl, .inr hr⟩
  · have hmod : a % n = a := Nat.mod_eq_of_lt ha
    obtain ⟨hl, hr⟩ := h.previous_of_line (by rwa [hmod])
    exact ⟨by rw [hl, hmod], .inl hr⟩

theorem Turns.back (h : Turns n lines a r) (ha : a < n) (hgap : ago lines ((a + 1) % n) = [])
    (hne : ago lines a ≠ []) (j : Nat) : Turns n lines a (r.back j) := by
  induction j with
  | zero => exact h
  | succ j ih => exact (ih.previous ha hgap hne).2

/-- Recalling the next line takes back the last step of a walk. -/
theorem Reaches.next_of_back (h : Reaches n lines 0 r) (hj : j < n)
    (hne : ∀ i ≤ j, ago lines i ≠ []) : (r.back (j + 1)).recallNext = (ago lines j, r.back j) := by
  have hb : Reaches n lines j (r.back j) := h.back fun i hi => by
    rw [Nat.mod_eq_of_lt (by omega)]
    exact hne i (by omega)
  have hr := hb.recalled hj
  have hback := (recallNext_recallPrevious (hr ▸ hne j (Nat.le_refl j))).1
  rwa [hr] at hback

theorem Reaches.forth (h : Reaches n lines 0 r) {d : Nat} (hd : d ≤ n)
    (hne : ∀ i < d, ago lines i ≠ []) (hj : j ≤ d) : (r.back d).forth j = r.back (d - j) := by
  induction j with
  | zero => rfl
  | succ j ih =>
    obtain ⟨i, rfl⟩ := Nat.exists_eq_add_of_lt hj
    have hi : j + i + 1 - j = i + 1 := by omega
    have hs := h.next_of_back (j := i) (by omega) fun a ha => hne a (by omega)
    show ((r.back (j + i + 1)).forth j).recallNext.2 = _
    rw [ih (by omega), hi, hs, Nat.add_right_comm, Nat.add_sub_cancel_left]

theorem back_add (r : HistoryRing) (i j : Nat) : r.back (i + j) = (r.back i).back j := by
  induction j with
  | zero => rfl
  | succ j ih => exact congrArg (fun r => r.recallPrevious.2) ih

theorem forth_add (r : HistoryRing) (i j : Nat) : r.forth (i + j) = (r.forth i).forth j := by
  induction j with
  | zero => rfl
  | succ j ih => exact congrArg (fun r => r.recallNext.2) ih

theorem forth_of_fixed (h : r.recallNext = ([], r)) (j : Nat) : r.forth j = r := by
  induction j with
  | zero => rfl
  | succ j ih => rw [HistoryRing.forth, ih, h]

/-- In front of the newest line there is a free slot, which ends the walk back to it. -/
theorem Reaches.next_of_free (h : Reaches n lines 0 r) (hfree : lines.length < n) :
    r.recallNext = ([], r) := by
  have hn : n - 1 + 1 = n := by omega
  have hround : Reaches n lines (n - 1 + 1) r := hn.symm ▸ reaches_round.mpr h
  exact hround.next_of_gap (by omega) (ago_of_le (by omega))

/-! ## Lines that are not empty -/

section Lines

variable (h : Reaches n lines 0 r) (hne : ∀ a < lines.length, ago lines a ≠ [])
include h hne

/-- In a full ring the walk goes round. -/
theorem Reaches.previous_of_full (hfull : n ≤ lines.length) (j : Nat) :
    (r.back j).recallPrevious.1 = ago lines (j % n) := by
  have hn : 0 < n := h.size ▸ r.size_pos
  have hj (i : Nat) : ago lines (i % n) ≠ [] :=
    hne _ (Nat.lt_of_lt_of_le (Nat.mod_lt i hn) hfull)
  exact ((h.back fun i _ => hj i).previous_of_line (hj j)).1

variable (hfree : lines.length < n)
include hfree

theorem Reaches.back_of_le (hj : j ≤ lines.length) : Reaches n lines j (r.back j) :=
  h.back fun i hi => by
    rw [Nat.mod_eq_of_lt (by omega)]
    exact hne i (by omega)

theorem Reaches.previous_of_lt (hj : j < lines.length) :
    (r.back j).recallPrevious.1 = ago lines j := by
  have hm : j % n = j := Nat.mod_eq_of_lt (by omega)
  have hl := ((h.back_of_le hne hfree (Nat.le_of_lt hj)).previous_of_line (hm.symm ▸ hne j hj)).1
  rwa [hm] at hl

/-- Behind the first line there is a free slot, where the walk turns round. -/
theorem Reaches.previous_of_le (hpos : 0 < lines.length) (hj : lines.length ≤ j) :
    (r.back j).recallPrevious.1 = ago lines (lines.length - 1) := by
  obtain ⟨i, rfl⟩ := Nat.exists_eq_add_of_le hj
  have hk : lines.length - 1 + 1 = lines.length := by omega
  have hgap : ago lines ((lines.length - 1 + 1) % n) = [] := by
    rw [hk, Nat.mod_eq_of_lt hfree]
    exact ago_of_le (Nat.le_refl _)
  have hlt : lines.length - 1 < n := by omega
  have hlast : ago lines (lines.length - 1) ≠ [] := hne _ (by omega)
  have hb : Turns n lines (lines.length - 1) (r.back lines.length) :=
    .inl (hk.symm ▸ h.back_of_le hne hfree (Nat.le_refl _))
  rw [back_add]
  exact ((hb.back hlt hgap hlast i).previous hlt hgap hlast).1

variable {d : Nat} (hd : d ≤ lines.length)
include hd

/-- Each step forth takes back one of the steps back. -/
theorem Reaches.forth_of_le (hj : j ≤ d) : (r.back d).forth j = r.back (d - j) :=
  h.forth (by omega) (fun i hi => hne i (by omega)) hj

theorem Reaches.next_of_lt (hj : j < d) :
    ((r.back d).forth j).recallNext.1 = ago lines (d - j - 1) := by
  have hi : d - j = d - j - 1 + 1 := by omega
  rw [h.forth_of_le hne hfree hd (Nat.le_of_lt hj), hi,
    h.next_of_back (by omega) fun i hi => hne i (by omega), Nat.add_sub_cancel]

theorem Reaches.next_of_le (hj : d ≤ j) : ((r.back d).forth j).recallNext = ([], r) := by
  obtain ⟨i, rfl⟩ := Nat.exists_eq_add_of_le hj
  have hnext := h.next_of_free hfree
  rw [forth_add, h.forth_of_le hne hfree hd (Nat.le_refl d), Nat.sub_self]
  show (r.forth i).recallNext = _
  rw [forth_of_fixed hnext, hnext]

end Lines

/-- **The order of recall.** When no line that was submitted is empty, recalling the previous line
gives them newest first. While the ring has a free slot it stops at the first one and gives it again
and again; recalling the next line then gives what follows up to the newest, and after it the empty
line, with the cursor on the newest. A full ring is gone round. Recall number `j + 1` is the one that is
made of `r.back j`. -/
theorem recall_order (capacity : Nat) (uses : List Use) (last : Text)
    (hne : ∀ line ∈ uses.filterMap Use.line? ++ [last], line ≠ []) :
    let n := max capacity 1
    let lines := uses.filterMap Use.line? ++ [last]
    let k := lines.length
    let r := (uses.foldl HistoryRing.after (ofCapacity capacity)).submit last
    r.get = (k - 1) % n ∧ r.recalled = last ∧
      (k < n →
        (∀ j < k, lines[k - 1 - j]? = some (r.back j).recallPrevious.1) ∧
        (∀ j, k ≤ j → lines[0]? = some (r.back j).recallPrevious.1) ∧
        ∀ d ≤ k,
          (∀ j < d, lines[k - d + j]? = some ((r.back d).forth j).recallNext.1) ∧
          ∀ j, d ≤ j → ((r.back d).forth j).recallNext = ([], r)) ∧
      (n ≤ k → ∀ j, lines[k - 1 - j % n]? = some (r.back j).recallPrevious.1) := by
  intro n lines k r
  have h : Reaches n lines 0 r := reaches_submit capacity uses last
  have hn : 0 < n := h.size ▸ r.size_pos
  have hk : 0 < k := by simp [k, lines]
  have hline (a : Nat) (ha : a < k) : ago lines a ≠ [] :=
    hne _ (List.mem_of_getElem? (ago_of_lt ha))
  refine ⟨?_, recalled_submit _ last, fun hfree => ⟨?_, ?_, ?_⟩, ?_⟩
  · have hput := ((remembers_ofCapacity capacity).foldl uses).put
    show HistoryRing.put _ = _
    simpa [k, lines] using hput
  · intro j hj
    rw [h.previous_of_lt hline hfree hj]
    exact ago_of_lt hj
  · intro j hj
    have hlt : k - 1 < lines.length := Nat.sub_lt hk Nat.one_pos
    have hfirst := ago_of_lt hlt
    rw [Nat.sub_self] at hfirst
    rw [h.previous_of_le hline hfree hk hj]
    exact hfirst
  · intro d hd
    refine ⟨fun j hj => ?_, fun j => h.next_of_le hline hfree hd⟩
    have hat : k - 1 - (d - j - 1) = k - d + j := by omega
    rw [h.next_of_lt hline hfree hd hj, ← hat]
    exact ago_of_lt (by omega)
  · intro hfull j
    rw [h.previous_of_full hline hfull]
    exact ago_of_lt (Nat.lt_of_lt_of_le (Nat.mod_lt j hn) hfull)

/-- Two lines in three slots, with a recall between them, and three lines in two slots. -/
theorem recall_order_turned :
    let r := ([Use.submit "a".toList, .recallPrevious].foldl HistoryRing.after
      (ofCapacity 3)).submit "b".toList
    let s := ([Use.submit "a".toList, .submit "b".toList].foldl HistoryRing.after
      (ofCapacity 2)).submit "c".toList
    (r.back 2).recallPrevious.1 = "a".toList ∧ ((r.back 2).forth 1).recallNext.1 = "b".toList ∧
      ((r.back 2).forth 2).recallNext = ([], r) ∧ (s.back 2).recallPrevious.1 = "c".toList := by
  intro r s
  obtain ⟨-, -, hfree, -⟩ :=
    recall_order 3 [.submit "a".toList, .recallPrevious] "b".toList (by decide)
  obtain ⟨-, -, -, hfull⟩ :=
    recall_order 2 [.submit "a".toList, .submit "b".toList] "c".toList (by decide)
  obtain ⟨-, hstuck, hforth⟩ := hfree (by decide)
  obtain ⟨hback, hend⟩ := hforth 2 (by decide)
  exact ⟨(Option.some.inj (hstuck 2 (by decide))).symm,
    (Option.some.inj (hback 1 (by decide))).symm, hend 2 (by decide),
    (Option.some.inj (hfull (by decide) 2)).symm⟩

end LineRepl.HistoryRing
