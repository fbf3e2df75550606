import LineRepl.Proofs.RawMode

/-! What a ring remembers. Lines are numbered from 0 as they are submitted, and each goes to the slot
that its number leaves when it is divided by the number of slots. There it stays until the ring has
come round, so that at all times just the last lines are kept, as many as there are slots. Recalling
walks over them and changes none. -/
namespace LineRepl.HistoryRing

variable {n i j : Nat} {r r' : HistoryRing} {lines : List Text} {line : Text}

/-! ## The last line of a slot -/

/-- Of the lines whose number leaves `i` when it is divided by `n`, the last one; empty if there is
none. -/
def Latest (n : Nat) (lines : List Text) (i : Nat) (line : Text) : Prop :=
  (∃ j, lines[j]? = some line ∧ j % n = i ∧ ∀ k, j < k → k < lines.length → k % n ≠ i) ∨
    (∀ j < lines.length, j % n ≠ i) ∧ line = []

theorem latest_append_self (lines : List Text) (line : Text) :
    Latest n (lines ++ [line]) (lines.length % n) line := by
  refine .inl ⟨lines.length, by simp, rfl, fun k hk hl => ?_⟩
  rw [List.length_append, List.length_singleton] at hl
  omega

/-- A line for another slot changes nothing. -/
theorem Latest.append (h : Latest n lines i line) (hi : lines.length % n ≠ i) (next : Text) :
    Latest n (lines ++ [next]) i line := by
  have older {k : Nat} (hk : k < (lines ++ [next]).length) (hn : k < lines.length → k % n ≠ i) :
      k % n ≠ i := by
    rw [List.length_append, List.length_singleton] at hk
    by_cases hl : k < lines.length
    · exact hn hl
    · obtain rfl : k = lines.length := by omega
      exact hi
  obtain ⟨j, hj, hm, hk⟩ | ⟨hn, rfl⟩ := h
  · have hlt : j < lines.length := (List.getElem?_eq_some_iff.mp hj).1
    refine .inl ⟨j, (List.getElem?_append_left hlt).trans hj, hm, fun k hjk hl => ?_⟩
    exact older hl (hk k hjk)
  · exact .inr ⟨fun j hl => older hl (hn j), rfl⟩

/-- Numbers that leave the same are not close together. -/
theorem eq_of_mod_eq {k : Nat} (h : j ≤ k) (hk : k < j + n) (hm : k % n = j % n) : k = j := by
  have hd := Nat.sub_mod_eq_zero_of_mod_eq hm
  rw [Nat.mod_eq_of_lt (by omega)] at hd
  omega

/-- One of the last `n` lines is the last one of its slot. -/
theorem Latest.eq_of_recent (h : Latest n lines (j % n) line) (hj : j < lines.length)
    (hr : lines.length ≤ j + n) : lines[j]? = some line := by
  obtain ⟨k, hk, hm, hl⟩ | ⟨hn, -⟩ := h
  · have hlt : k < lines.length := (List.getElem?_eq_some_iff.mp hk).1
    have hle : j ≤ k := Nat.le_of_not_lt fun h => hl j h hj rfl
    exact eq_of_mod_eq hle (by omega) hm ▸ hk
  · exact absurd rfl (hn j hj)

/-- The last line of a slot is one of the last `n`. -/
theorem Latest.mem_recent (h : Latest n lines i line) (hn : 0 < n) :
    line = [] ∨ line ∈ lines.drop (lines.length - n) := by
  obtain ⟨j, hj, hm, hl⟩ | ⟨-, rfl⟩ := h
  · have hr : lines.length ≤ j + n := Nat.le_of_not_lt fun h =>
      hl (j + n) (by omega) h (by rw [Nat.add_mod_right, hm])
    have hd : (lines.drop (lines.length - n))[j - (lines.length - n)]? = some line := by
      rw [List.getElem?_drop, Nat.add_sub_of_le (by omega), hj]
    exact .inr (List.mem_of_getElem? hd)
  · exact .inl rfl

/-! ## Uses of a ring -/

/-- What is done to a ring. -/
inductive Use
  | submit (line : Text)
  | recallPrevious
  | recallNext
  deriving DecidableEq, Repr

/-- The ring after a use. What was recalled is given to the user. -/
def after (r : HistoryRing) : Use → HistoryRing
  | .submit line => r.submit line
  | .recallPrevious => r.recallPrevious.2
  | .recallNext => r.recallNext.2

/-- The line that a use submits, if it submits one. -/
def Use.line? : Use → Option Text
  | submit line => some line
  | recallPrevious | recallNext => none

/-- A ring of `n` slots to which these lines were submitted. -/
structure Remembers (n : Nat) (lines : List Text) (r : HistoryRing) : Prop where
  size : r.slots.size = n
  put : r.put = lines.length % n
  slot {i : Nat} (h : i < r.slots.size) : Latest n lines i r.slots[i]

theorem remembers_ofCapacity (capacity : Nat) :
    Remembers (max capacity 1) [] (ofCapacity capacity) where
  size := Array.size_replicate
  put := (Nat.zero_mod _).symm
  slot _ := .inr ⟨nofun, Array.getElem_replicate _⟩

theorem Remembers.submit (h : Remembers n lines r) (line : Text) :
    Remembers n (lines ++ [line]) (r.submit line) where
  size := (Array.size_set r.put_lt).trans h.size
  put := by
    show (r.put + 1) % r.slots.size = _
    rw [h.put, h.size, Nat.mod_add_mod, List.length_append, List.length_singleton]
  slot {i} hi := by
    have hs : i < r.slots.size := Nat.lt_of_lt_of_eq hi (Array.size_set r.put_lt)
    by_cases hp : r.put = i
    · have he : (r.submit line).slots[i] = line := by
        subst hp
        exact Array.getElem_set_self r.put_lt
      rw [he, ← hp, h.put]
      exact latest_append_self lines line
    · have he : (r.submit line).slots[i] = r.slots[i] := Array.getElem_set_ne r.put_lt hs hp
      rw [he]
      exact (h.slot hs).append (h.put ▸ hp) line

theorem Remembers.of_sameLines (h : Remembers n lines r) (hs : r.SameLines r') :
    Remembers n lines r' := by
  obtain ⟨slots, put, get, hp, hg⟩ := r'
  obtain ⟨rfl, rfl⟩ := hs
  exact ⟨h.size, h.put, h.slot⟩

/-- One use. -/
theorem Remembers.after (h : Remembers n lines r) (use : Use) :
    Remembers n (lines ++ use.line?.toList) (r.after use) := by
  cases use with
  | submit line => exact h.submit line
  | recallPrevious =>
    rw [Use.line?, Option.toList_none, List.append_nil]
    exact h.of_sameLines r.recallPrevious_sameLines
  | recallNext =>
    rw [Use.line?, Option.toList_none, List.append_nil]
    exact h.of_sameLines r.recallNext_sameLines

/-- Any number of uses. -/
theorem Remembers.foldl (h : Remembers n lines r) (uses : List Use) :
    Remembers n (lines ++ uses.filterMap Use.line?) (uses.foldl HistoryRing.after r) := by
  induction uses generalizing lines r with
  | nil => rwa [List.filterMap_nil, List.append_nil]
  | cons use uses ih =>
    have h' := ih (h.after use)
    rw [List.append_assoc] at h'
    cases use <;> exact h'

/-! ## What is recalled -/

theorem recalled_mem (r : HistoryRing) : r.recalled ∈ r.slots := Array.getElem_mem _

theorem recallNext_mem (r : HistoryRing) : r.recallNext.1 = [] ∨ r.recallNext.1 ∈ r.slots := by
  unfold recallNext
  split
  · exact .inl rfl
  · exact .inr r.moveForward.recalled_mem

theorem recallPrevious_mem (r : HistoryRing) :
    r.recallPrevious.1 = [] ∨ r.recallPrevious.1 ∈ r.slots := by
  unfold recallPrevious
  split
  · exact r.recallNext_mem
  · exact .inr r.recalled_mem

theorem moveForward_moveBack (r : HistoryRing) : r.moveBack.moveForward = r := by
  obtain ⟨slots, put, get, hp, hg⟩ := r
  have hm : ((get + slots.size - 1) % slots.size + 1) % slots.size = get := by
    rw [Nat.mod_add_mod, Nat.sub_add_cancel (by omega), Nat.add_mod_right, Nat.mod_eq_of_lt hg]
  simp only [moveForward, moveBack, stepForward, stepBack, hm]

/-- Recalling the next line undoes recalling a line that was there. -/
theorem recallNext_recallPrevious (h : r.recalled ≠ []) :
    r.recallPrevious.2.recallNext = (r.recalled, r) ∧ r.recallPrevious.1 = r.recalled := by
  have he : ¬ r.recalled.isEmpty = true := by simpa using h
  rw [recallPrevious, if_neg he, recallNext, r.moveForward_moveBack, if_neg he]
  exact ⟨rfl, rfl⟩

/-- A recall from `r` gives nothing or one of these lines, and moves the recall cursor at most. -/
structure Recalls (r : HistoryRing) (kept : List Text) (found : Text × HistoryRing) : Prop where
  line : found.1 = [] ∨ found.1 ∈ kept
  sameLines : r.SameLines found.2

/-- What is in the slots and is not empty is one of the last lines. -/
theorem Remembers.mem_recent (h : Remembers n lines r) (hm : line ∈ r.slots) :
    line = [] ∨ line ∈ lines.drop (lines.length - n) := by
  obtain ⟨i, hi, rfl⟩ := Array.mem_iff_getElem.mp hm
  exact (h.slot hi).mem_recent (h.size ▸ r.size_pos)

/-- One of the last lines is in its slot. -/
theorem Remembers.getElem?_slots (h : Remembers n lines r) (hj : lines[j]? = some line)
    (hr : lines.length ≤ j + n) : r.slots[j % n]? = some line := by
  have hs : j % n < r.slots.size := h.size ▸ Nat.mod_lt j (h.size ▸ r.size_pos)
  have hl := (h.slot hs).eq_of_recent (List.getElem?_eq_some_iff.mp hj).1 hr
  rw [Array.getElem?_eq_getElem hs, ← hl, hj]

/-- **A ring keeps just the last lines**, whatever is submitted and recalled, as many as there are
slots, each in its own slot. A recall gives one of them or nothing and leaves them where they are,
and recalling the next line takes back that the previous one was recalled. -/
theorem ring_keeps_last (capacity : Nat) (uses : List Use) :
    let n := max capacity 1
    let lines := uses.filterMap Use.line?
    let kept := lines.drop (lines.length - n)
    let r := uses.foldl HistoryRing.after (ofCapacity capacity)
    Remembers n lines r ∧ r.put < n ∧ r.get < n ∧
      (∀ j line, lines[j]? = some line → lines.length ≤ j + n → r.slots[j % n]? = some line) ∧
      (∀ line ∈ r.slots, line = [] ∨ line ∈ kept) ∧
      Recalls r kept r.recallPrevious ∧ Recalls r kept r.recallNext ∧
      (r.recalled ≠ [] →
        r.recallPrevious.2.recallNext = (r.recalled, r) ∧ r.recallPrevious.1 = r.recalled) := by
  intro n lines kept r
  have h : Remembers n lines r := (remembers_ofCapacity capacity).foldl uses
  have mem {line : Text} (hl : line = [] ∨ line ∈ r.slots) : line = [] ∨ line ∈ kept :=
    hl.elim .inl h.mem_recent
  refine ⟨h, h.size ▸ r.put_lt, h.size ▸ r.get_lt, fun _ _ => h.getElem?_slots,
    fun _ => h.mem_recent, ?_, ?_, recallNext_recallPrevious⟩
  · exact ⟨mem r.recallPrevious_mem, r.recallPrevious_sameLines⟩
  · exact ⟨mem r.recallNext_mem, r.recallNext_sameLines⟩

/-- Three lines in two slots, with a recall between them. -/
theorem ring_keeps_last_wrapped :
    let r := [Use.submit "a".toList, .submit "b".toList, .recallPrevious, .submit "c".toList].foldl
      HistoryRing.after (ofCapacity 2)
    r.slots[0]? = some "c".toList ∧ r.slots[1]? = some "b".toList ∧
      r.recallPrevious.1 = "c".toList ∧ r.recallPrevious.2.recallNext = ("c".toList, r) := by
  intro r
  obtain ⟨-, -, -, hkept, -, -, -, hback⟩ := ring_keeps_last 2
    [.submit "a".toList, .submit "b".toList, .recallPrevious, .submit "c".toList]
  have hc : r.recalled = "c".toList := by decide
  obtain ⟨hnext, hprevious⟩ := hback (hc ▸ by decide)
  refine ⟨hkept 2 _ (by decide) (by decide), hkept 1 _ (by decide) (by decide), ?_, ?_⟩
  · exact hprevious.trans hc
  · exact hc ▸ hnext

end LineRepl.HistoryRing
