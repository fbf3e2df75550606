import LineRepl.Proofs.RecallOrder

/-! Empty lines among those that were submitted. An empty line takes a slot and leaves it looking free,
so a walk back turns round at it and does not come to what is older. Only when it is the newest line
does the walk begin at a gap; then it looks at the slot after it, which in a full ring holds the oldest
line of all. -/
namespace LineRepl.HistoryRing

variable {n a i j : Nat} {r : HistoryRing} {lines : List Text}

/-! ## What a walk comes to -/

/-- Where a walk back can be: after lines that are not empty, or at the oldest line when it began at
an empty one. -/
inductive Walks (n : Nat) (lines : List Text) (r : HistoryRing) : Prop
  | along {a : Nat} : Reaches n lines a r → a < n → (∀ b < a, ago lines b ≠ []) → Walks n lines r
  | round : Reaches n lines (n - 1) r → ago lines 0 = [] → ago lines (n - 1) ≠ [] → Walks n lines r

/-- A walk can come to the line so far back: none is empty up to it, or the newest one is and this is
the oldest that a ring can hold. -/
def Open (n : Nat) (lines : List Text) (a : Nat) : Prop :=
  a < n ∧ ((∀ b ≤ a, ago lines b ≠ []) ∨ ago lines 0 = [] ∧ a + 1 = n)

theorem Reaches.walks (h : Reaches n lines 0 r) : Walks n lines r :=
  .along h (h.size ▸ r.size_pos) nofun

theorem Reaches.walks_succ (h : Reaches n lines (a + 1) r) (ha : a < n)
    (hne : ∀ b ≤ a, ago lines b ≠ []) : Walks n lines r := by
  by_cases hlt : a + 1 < n
  · exact .along h hlt fun b hb => hne b (Nat.le_of_lt_succ hb)
  · obtain rfl : a + 1 = n := by omega
    exact (reaches_round.mp h).walks

/-- At an empty newest line the oldest one is given, if the ring is full and it is not empty. -/
theorem Reaches.previous_of_newest_gap (h : Reaches n lines 0 r) (hgap : ago lines 0 = []) :
    Walks n lines r.recallPrevious.2 ∧
      (r.recallPrevious.1 = [] ∨ ∃ a, Open n lines a ∧ r.recallPrevious.1 = ago lines a) := by
  have hpos : 0 < n := h.size ▸ r.size_pos
  have hn : n - 1 + 1 = n := by omega
  have hround : Reaches n lines (n - 1 + 1) r := hn.symm ▸ reaches_round.mpr h
  by_cases hold : ago lines (n - 1) = []
  · have hr : r.recallPrevious = ([], r) := by
      rw [recallPrevious, h.recalled hpos, hgap, if_pos List.isEmpty_nil]
      exact hround.next_of_gap (by omega) hold
    rw [hr]
    exact ⟨h.walks, .inl rfl⟩
  · have hfirst : ago lines ((n - 1 + 1) % n) = [] := by rwa [hn, Nat.mod_self]
    obtain ⟨hl, hr⟩ := hround.previous_of_gap hfirst (by omega) hold
    exact ⟨.round hr hgap hold, .inr ⟨n - 1, ⟨by omega, .inr ⟨hgap, hn⟩⟩, hl⟩⟩

/-- What one recall gives, and where it leads. -/
theorem Walks.previous (h : Walks n lines r) :
    Walks n lines r.recallPrevious.2 ∧
      (r.recallPrevious.1 = [] ∨ ∃ a, Open n lines a ∧ r.recallPrevious.1 = ago lines a) := by
  cases h with
  | @along a h ha hne =>
    have hmod : a % n = a := Nat.mod_eq_of_lt ha
    by_cases hgap : ago lines a = []
    · cases a with
      | zero => exact h.previous_of_newest_gap hgap
      | succ a =>
        have hline := hne a (Nat.lt_succ_self a)
        obtain ⟨hl, hr⟩ := h.previous_of_gap (by rwa [hmod]) (by omega) hline
        have hup (b : Nat) (hb : b ≤ a) : ago lines b ≠ [] := hne b (by omega)
        exact ⟨.along hr (by omega) fun b hb => hup b (Nat.le_of_lt hb),
          .inr ⟨a, ⟨by omega, .inl hup⟩, hl⟩⟩
    · have hup (b : Nat) (hb : b ≤ a) : ago lines b ≠ [] := by
        rcases Nat.lt_or_eq_of_le hb with hb | rfl
        · exact hne b hb
        · exact hgap
      obtain ⟨hl, hr⟩ := h.previous_of_line (by rwa [hmod])
      exact ⟨hr.walks_succ ha hup, .inr ⟨a, ⟨ha, .inl hup⟩, by rw [hl, hmod]⟩⟩
  | round h hgap hne =>
    have hn : n - 1 + 1 = n := by
      have := h.size ▸ r.size_pos
      omega
    have hmod : (n - 1) % n = n - 1 := Nat.mod_eq_of_lt (by omega)
    obtain ⟨hl, hr⟩ := h.previous_of_line (by rwa [hmod])
    rw [hn] at hr
    exact ⟨(reaches_round.mp hr).walks, .inr ⟨n - 1, ⟨by omega, .inr ⟨hgap, hn⟩⟩, by rw [hl, hmod]⟩⟩

theorem Walks.back (h : Walks n lines r) (j : Nat) : Walks n lines (r.back j) := by
  induction j with
  | zero => exact h
  | succ j ih => exact ih.previous.1

/-- A walk does come to an open line. -/
theorem Open.previous (ho : Open n lines a) (h : Reaches n lines 0 r) (hne : ago lines a ≠ []) :
    ∃ j < n, (r.back j).recallPrevious.1 = ago lines a := by
  obtain ⟨ha, hup | ⟨hgap, hn⟩⟩ := ho
  · have hmod {b : Nat} (hb : b ≤ a) : b % n = b := Nat.mod_eq_of_lt (by omega)
    have hb : Reaches n lines a (r.back a) := h.back fun b hb => by
      rw [hmod (Nat.le_of_lt hb)]
      exact hup b (Nat.le_of_lt hb)
    have hl := (hb.previous_of_line (by rwa [hmod (Nat.le_refl a)])).1
    exact ⟨a, ha, by rw [hl, hmod (Nat.le_refl a)]⟩
  · have hround : Reaches n lines (a + 1) r := hn.symm ▸ reaches_round.mpr h
    have hfirst : ago lines ((a + 1) % n) = [] := by rwa [hn, Nat.mod_self]
    exact ⟨0, by omega, (hround.previous_of_gap hfirst ha hne).1⟩

/-! ## By the number of a line -/

/-- Line `i` is one of the last `n`, and neither it nor any line after it is empty, or the newest one
is and line `i` is the first of the last `n`. -/
def Recallable (n : Nat) (lines : List Text) (i : Nat) : Prop :=
  lines.length ≤ i + n ∧
    ((∀ line ∈ lines.drop i, line ≠ []) ∨ lines.getLast? = some [] ∧ i + n = lines.length)

instance : Decidable (Recallable n lines i) := inferInstanceAs (Decidable (_ ∧ _))

theorem open_iff (ha : a < lines.length) :
    Open n lines a ↔ Recallable n lines (lines.length - 1 - a) := by
  have hup : (∀ b ≤ a, ago lines b ≠ []) ↔
      ∀ line ∈ lines.drop (lines.length - 1 - a), line ≠ [] := by
    constructor
    · intro h line hm
      obtain ⟨m, hm⟩ := List.mem_iff_getElem?.mp hm
      rw [List.getElem?_drop] at hm
      have hlt := (List.getElem?_eq_some_iff.mp hm).1
      have hb : a - m < lines.length := by omega
      have hi : lines.length - 1 - (a - m) = lines.length - 1 - a + m := by omega
      have hl := ago_of_lt hb
      rw [hi, hm, Option.some_inj] at hl
      exact hl ▸ h _ (by omega)
    · intro h b hb
      have hi : lines.length - 1 - a + (a - b) = lines.length - 1 - b := by omega
      have hl := ago_of_lt (Nat.lt_of_le_of_lt hb ha)
      rw [← hi, ← List.getElem?_drop] at hl
      exact h _ (List.mem_of_getElem? hl)
  have hlast : lines.getLast? = some (ago lines 0) := by
    have hpos : 0 < lines.length := Nat.zero_lt_of_lt ha
    rw [List.getLast?_eq_getElem?]
    exact ago_of_lt hpos
  rw [Open, Recallable, hup, hlast, Option.some_inj]
  constructor
  · rintro ⟨hn, h | ⟨h, he⟩⟩
    · exact ⟨by omega, .inl h⟩
    · exact ⟨by omega, .inr ⟨h, by omega⟩⟩
  · rintro ⟨hn, h | ⟨h, he⟩⟩
    · exact ⟨by omega, .inl h⟩
    · exact ⟨by omega, .inr ⟨h, by omega⟩⟩

/-- **Which lines can be recalled.** After any uses that end in a submission, a line that is not empty
is found by recalling the previous line again and again exactly if it was submitted among the last
ones and no empty line after it, or if the line submitted last is empty and it is the oldest one that
the ring still holds. As many recalls as there are slots are enough. -/
theorem recalled_iff_recallable (capacity : Nat) (uses : List Use) (last line : Text)
    (hline : line ≠ []) :
    let n := max capacity 1
    let lines := uses.filterMap Use.line? ++ [last]
    let r := (uses.foldl HistoryRing.after (ofCapacity capacity)).submit last
    ((∃ j, (r.back j).recallPrevious.1 = line) ↔
      ∃ i, lines[i]? = some line ∧ Recallable n lines i) ∧
    ((∃ i, lines[i]? = some line ∧ Recallable n lines i) →
      ∃ j < n, (r.back j).recallPrevious.1 = line) := by
  intro n lines r
  have h : Reaches n lines 0 r := reaches_submit capacity uses last
  have found : (∃ i, lines[i]? = some line ∧ Recallable n lines i) →
      ∃ j < n, (r.back j).recallPrevious.1 = line := by
    rintro ⟨i, hi, hr⟩
    have hlt := (List.getElem?_eq_some_iff.mp hi).1
    have hback : lines.length - 1 - (lines.length - 1 - i) = i := by omega
    have ha : lines.length - 1 - i < lines.length := by omega
    have hl := ago_of_lt ha
    rw [hback, hi, Option.some_inj] at hl
    have ho : Open n lines (lines.length - 1 - i) := (open_iff ha).mpr (by rwa [hback])
    rw [hl] at hline ⊢
    exact ho.previous h hline
  refine ⟨⟨?_, fun hr => ?_⟩, found⟩
  · rintro ⟨j, rfl⟩
    obtain hnil | ⟨a, ho, hl⟩ := (h.walks.back j).previous.2
    · exact absurd hnil hline
    · rw [hl] at hline ⊢
      have ha : a < lines.length := Nat.lt_of_not_le fun hle => hline (ago_of_le hle)
      exact ⟨_, ago_of_lt ha, (open_iff ha).mp ho⟩
  · obtain ⟨j, -, hj⟩ := found hr
    exact ⟨j, hj⟩

/-- Before an empty line there is one that is kept and not found; it is found when it is the oldest
and the empty line the newest. -/
theorem recalled_iff_recallable_gap :
    let r := ([Use.submit "a".toList, .submit []].foldl HistoryRing.after
      (ofCapacity 3)).submit "b".toList
    let s := ([Use.submit "a".toList].foldl HistoryRing.after (ofCapacity 2)).submit []
    (∃ j < 3, (r.back j).recallPrevious.1 = "b".toList) ∧
      (¬ ∃ j, (r.back j).recallPrevious.1 = "a".toList) ∧
      ∃ j < 2, (s.back j).recallPrevious.1 = "a".toList := by
  intro r s
  refine ⟨?_, ?_, ?_⟩
  · exact (recalled_iff_recallable 3 [.submit "a".toList, .submit []] "b".toList "b".toList
      (by decide)).2 ⟨2, by decide, by decide⟩
  · intro hr
    obtain ⟨i, hi, hopen⟩ := (recalled_iff_recallable 3 [.submit "a".toList, .submit []] "b".toList
      "a".toList (by decide)).1.mp hr
    match i with
    | 0 => exact absurd hopen (by decide)
    | 1 | 2 => exact absurd hi (by decide)
    | _ + 3 => cases hi
  · exact (recalled_iff_recallable 2 [.submit "a".toList] [] "a".toList (by decide)).2
      ⟨0, by decide, by decide⟩

theorem back_of_fixed (h : r.recallPrevious.2 = r) (j : Nat) : r.back j = r := by
  induction j with
  | zero => rfl
  | succ j ih => rw [HistoryRing.back, ih, h]

/-- Behind an empty line there may be another that is in a slot and is not found. -/
theorem empty_line_hides_older :
    ¬ ∀ (capacity : Nat) (lines : List Text),
      ∀ line ∈ lines.drop (lines.length - max capacity 1), line ≠ [] →
        ∃ j, ((lines.foldl (fun r l => r.submit l) (ofCapacity capacity)).back j).recallPrevious.1 =
          line := by
  intro h
  obtain ⟨j, hj⟩ := h 3 ["a".toList, []] "a".toList (by decide) (by decide)
  rw [back_of_fixed rfl] at hj
  exact absurd hj (by decide)

end LineRepl.HistoryRing
