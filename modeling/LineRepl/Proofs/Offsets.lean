import LineRepl.Buffer.Index
import LineRepl.Proofs.StoredLines

/-! Byte offsets into a text: where it can be cut, where its lines begin, and where its last brace
stands. An offset that is the size of a leading part is never inside a character, and the index
holds such offsets only. -/
namespace LineRepl.Text

theorem byteSize_append (a b : Text) : byteSize (a ++ b) = byteSize a + byteSize b := by
  induction a with
  | nil => simp [byteSize]
  | cons c a ih => simp [byteSize, ih, Nat.add_assoc]

theorem byteSize_pos {t : Text} (h : t ≠ []) : 0 < byteSize t := by
  obtain ⟨c, r, rfl⟩ := List.exists_cons_of_ne_nil h
  have := c.utf8Size_pos
  simp only [byteSize]
  omega

/-- A cut at the size of a leading part gives this part and what follows it. -/
theorem cutAt_append (a b : Text) : cutAt (byteSize a) (a ++ b) = some (a, b) := by
  induction a with
  | nil => simp [byteSize, cutAt]
  | cons c a ih =>
    obtain ⟨n, hn⟩ := Nat.exists_eq_succ_of_ne_zero (Nat.ne_of_gt (byteSize_pos (t := c :: a) (by simp)))
    have hle : c.utf8Size ≤ n + 1 := by simp only [byteSize] at hn; omega
    have hsub : n + 1 - c.utf8Size = byteSize a := by simp only [byteSize] at hn; omega
    rw [hn, List.cons_append, cutAt, if_pos hle, hsub, ih]
    rfl

/-! ## Before the last brace -/

theorem beforeLast_eq_none {ch : Char} {t : Text} : beforeLast ch t = none ↔ ch ∉ t := by
  induction t with
  | nil => simp [beforeLast]
  | cons c r ih =>
    simp only [beforeLast]
    cases h : beforeLast ch r with
    | some a =>
      have hr : ch ∈ r := Decidable.byContradiction fun hn => by
        rw [ih.mpr hn] at h
        cases h
      simp [hr]
    | none =>
      by_cases hc : c = ch
      · simp [hc]
      · simp [hc, ih.mp h, Ne.symm hc]

theorem beforeLast_append {ch : Char} (a : Text) {b : Text} (h : ch ∉ b) :
    beforeLast ch (a ++ ch :: b) = some a := by
  induction a with
  | nil => simp [beforeLast, beforeLast_eq_none.mpr h]
  | cons c a ih => simp [beforeLast, ih]

theorem exists_of_beforeLast {ch : Char} {t a : Text} (h : beforeLast ch t = some a) :
    ∃ b, t = a ++ ch :: b ∧ ch ∉ b := by
  induction t generalizing a with
  | nil => cases h
  | cons c r ih =>
    simp only [beforeLast] at h
    split at h
    · rename_i before hb
      obtain ⟨b, rfl, hn⟩ := ih hb
      obtain rfl := Option.some.inj h
      exact ⟨b, rfl, hn⟩
    · rename_i hb
      split at h
      · rename_i hc
        obtain rfl := Option.some.inj h
        exact ⟨r, by rw [hc]; rfl, beforeLast_eq_none.mp hb⟩
      · cases h

/-- What is left when the last `ch` is cut off with all that follows it. One that begins the text
stays. -/
def cutBefore (ch : Char) (t : Text) : Text :=
  match beforeLast ch t with
  | some (c :: r) => c :: r
  | _ => t

theorem cutBefore_append {ch : Char} {a b : Text} (ha : a ≠ []) (hb : ch ∉ b) :
    cutBefore ch (a ++ ch :: b) = a := by
  obtain ⟨c, r, rfl⟩ := List.exists_cons_of_ne_nil ha
  rw [cutBefore, beforeLast_append _ hb]

/-- A text is cut exactly when `ch` stands somewhere but at its beginning. -/
theorem cutBefore_cases (ch : Char) (t : Text) :
    (ch ∉ t.tail ∧ cutBefore ch t = t) ∨
      ∃ a b, a ≠ [] ∧ ch ∉ b ∧ t = a ++ ch :: b ∧ cutBefore ch t = a := by
  unfold cutBefore
  cases h : beforeLast ch t with
  | none => exact .inl ⟨fun hm => beforeLast_eq_none.mp h (List.mem_of_mem_tail hm), rfl⟩
  | some a =>
    obtain ⟨b, rfl, hb⟩ := exists_of_beforeLast h
    cases a with
    | nil => exact .inl ⟨hb, rfl⟩
    | cons c a => exact .inr ⟨c :: a, b, by simp, hb, rfl, rfl⟩

theorem cutBefore_eq_self {ch : Char} {t : Text} : cutBefore ch t = t ↔ ch ∉ t.tail := by
  obtain ⟨hn, he⟩ | ⟨a, b, ha, hb, rfl, he⟩ := cutBefore_cases ch t
  · simp [hn, he]
  · obtain ⟨c, r, rfl⟩ := List.exists_cons_of_ne_nil ha
    rw [he]
    simp

theorem byteSize_cutBefore_le (ch : Char) (t : Text) : byteSize (cutBefore ch t) ≤ byteSize t := by
  obtain ⟨-, he⟩ | ⟨a, b, -, -, rfl, he⟩ := cutBefore_cases ch t
  · exact Nat.le_of_eq (congrArg byteSize he)
  · rw [he, byteSize_append]
    exact Nat.le_add_right _ _

/-- What is cut off is of one line when that is the last one. -/
theorem feeds_cutBefore {ch : Char} {t : Text} (hc : Complete t) (hl : ch ∈ lastPiece t)
    (ht : ch ∈ t.tail) : feeds (cutBefore ch t) + 1 = feeds t := by
  obtain ⟨hn, -⟩ | ⟨a, b, -, hb, rfl, he⟩ := cutBefore_cases ch t
  · exact absurd ht hn
  · have hlast : lastPiece (a ++ ch :: b) <:+ a ++ ch :: b := ⟨_, dropLast_append_lastPiece _⟩
    have hcut : ch :: b <:+ lastPiece (a ++ ch :: b) := by
      rcases List.suffix_or_suffix_of_suffix hlast (List.suffix_append a (ch :: b)) with h | h
      · rcases List.suffix_cons_iff.mp h with h | h
        · exact ⟨[], h.symm⟩
        · exact absurd (h.subset hl) hb
      · exact h
    have hone := feeds_lastPiece hc (by simp)
    have hle : feeds (ch :: b) ≤ feeds (lastPiece (a ++ ch :: b)) := hcut.sublist.count_le _
    have hne := List.cons_ne_nil ch b
    have hpos := feeds_pos_of_complete ((complete_append_of_ne_nil a hne).mp hc) hne
    rw [he, feeds_append]
    omega

/-- Without some of its stored lines a text is no larger. -/
theorem byteSize_lead_append_rest_le {m n : Nat} (h : m ≤ n) (t : Text) :
    byteSize (lead m t ++ rest n t) ≤ byteSize t := by
  obtain ⟨k, rfl⟩ := Nat.exists_eq_add_of_le h
  have hrest : rest (m + k) t = rest k (rest m t) := by
    rw [rest, rest, pieces_rest, List.drop_drop]
  have hm := congrArg byteSize (lead_append_rest m t)
  have hk := congrArg byteSize (lead_append_rest k (rest m t))
  rw [byteSize_append] at hm hk
  rw [byteSize_append, hrest]
  omega

end LineRepl.Text

namespace LineRepl.LineIndex

open Text

theorem length_startsFrom (here : Nat) (t : Text) : (startsFrom here t).length = feeds t := by
  induction t generalizing here with
  | nil => rfl
  | cons c r ih =>
    by_cases hc : c = '\n'
    · simp [hc, startsFrom, feeds_feed_cons, ih]
    · simp [hc, startsFrom, feeds_cons_of_ne hc, ih]

theorem lineCount_scan (t : Text) : (scan t).lineCount = feeds t + 1 := by
  rw [lineCount, scan, length_startsFrom]

theorem startsFrom_getElem? (here : Nat) {a : Text} (h : Complete a) (b : Text) :
    (here :: startsFrom here (a ++ b))[feeds a]? = some (here + byteSize a) := by
  induction a generalizing here with
  | nil => rfl
  | cons c r ih =>
    by_cases hc : c = '\n'
    · subst hc
      have := ih (here + Char.utf8Size '\n') ((complete_feed_cons r).mp h)
      rw [feeds_feed_cons, byteSize, ← Nat.add_assoc, ← this]
      simp [startsFrom]
    · obtain ⟨hr, hcr⟩ := (complete_cons_of_ne hc).mp h
      obtain ⟨n, hn⟩ := Nat.exists_eq_succ_of_ne_zero (Nat.ne_of_gt (feeds_pos_of_complete hcr hr))
      have := ih (here + c.utf8Size) hcr
      rw [feeds_cons_of_ne hc, byteSize, ← Nat.add_assoc, ← this, hn]
      simp [startsFrom, hc]

/-- A line is indexed at the size of what stands before it. -/
theorem offset?_scan {n : Nat} {t : Text} (h : n ≤ feeds t) :
    (scan t).offset? (n + 1) = some (byteSize (lead n t)) := by
  have := startsFrom_getElem? 0 (complete_lead h) (rest n t)
  rwa [lead_append_rest, feeds_lead h, Nat.zero_add] at this

theorem offset?_scan_eq_none {n : Nat} {t : Text} (h : feeds t < n) :
    (scan t).offset? (n + 1) = none := by
  refine List.getElem?_eq_none (Nat.le_trans (Nat.le_of_eq ?_) h)
  rw [List.length_cons, scan, length_startsFrom]

end LineRepl.LineIndex
