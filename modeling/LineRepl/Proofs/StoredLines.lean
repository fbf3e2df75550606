import LineRepl.Text.Lines

/-! Stored lines and where they begin. A line begins exactly where what stands before it is
complete, that is empty or ended by a line feed. Cuts at such places are cuts between pieces, which
is what makes splicing and dropping pieces exact. -/
namespace LineRepl.Text

/-- A line begins where the text ends. -/
def Complete (t : Text) : Prop := ∀ c ∈ t.getLast?, c = '\n'

instance (t : Text) : Decidable (Complete t) :=
  decidable_of_iff (t.getLast?.all (· == '\n') = true) (by cases h : t.getLast? <;> simp [Complete, h])

@[simp] theorem complete_nil : Complete [] := by simp [Complete]

theorem complete_cons_of_ne_nil (c : Char) {r : Text} (h : r ≠ []) :
    Complete (c :: r) ↔ Complete r := by
  obtain ⟨d, r, rfl⟩ := List.exists_cons_of_ne_nil h
  simp [Complete, List.getLast?_cons_cons]

theorem complete_feed_cons (r : Text) : Complete ('\n' :: r) ↔ Complete r := by
  cases r with
  | nil => simp [Complete]
  | cons d r => exact complete_cons_of_ne_nil '\n' (List.cons_ne_nil d r)

/-- A character that is no line feed has to be followed by more. -/
theorem complete_cons_of_ne {c : Char} {r : Text} (hc : c ≠ '\n') :
    Complete (c :: r) ↔ r ≠ [] ∧ Complete r := by
  cases r with
  | nil => simp [Complete, hc]
  | cons d r => simp [complete_cons_of_ne_nil c (List.cons_ne_nil d r)]

theorem complete_append_of_ne_nil (a : Text) {b : Text} (h : b ≠ []) :
    Complete (a ++ b) ↔ Complete b := by
  simp [Complete, List.getLast?_append, h]

theorem Complete.append {a b : Text} (ha : Complete a) (hb : Complete b) : Complete (a ++ b) := by
  by_cases h : b = []
  · simpa [h] using ha
  · exact (complete_append_of_ne_nil a h).mpr hb

theorem complete_append_feed (a : Text) : Complete (a ++ ['\n']) :=
  (complete_append_of_ne_nil a (by simp)).mpr (by simp [Complete])

theorem Complete.exists_eq_append {t : Text} (h : Complete t) (ht : t ≠ []) :
    ∃ a, t = a ++ ['\n'] := by
  have hl : t.getLast ht = '\n' := h _ (List.getLast?_eq_some_getLast ht)
  exact ⟨t.dropLast, by rw [← hl, List.dropLast_concat_getLast]⟩

theorem complete_iff {t : Text} : Complete t ↔ t = [] ∨ t.getLast? = some '\n' := by
  constructor
  · intro h
    by_cases ht : t = []
    · exact .inl ht
    · obtain ⟨a, rfl⟩ := h.exists_eq_append ht
      exact .inr List.getLast?_concat
  · rintro (rfl | h) c hc
    · cases hc
    · exact (Option.some.inj (h.symm.trans hc)).symm

theorem complete_flatten {ps : List Text} (h : ∀ p ∈ ps, Complete p) : Complete ps.flatten := by
  induction ps with
  | nil => exact complete_nil
  | cons p ps ih =>
    rw [List.flatten_cons]
    exact (h p (by simp)).append (ih fun q hq => h q (by simp [hq]))

/-! ## Counting line feeds -/

@[simp] theorem feeds_nil : feeds [] = 0 := rfl

theorem feeds_append (a b : Text) : feeds (a ++ b) = feeds a + feeds b := List.count_append

theorem feeds_feed_cons (r : Text) : feeds ('\n' :: r) = feeds r + 1 := by simp [feeds]

theorem feeds_cons_of_ne {c : Char} {r : Text} (hc : c ≠ '\n') : feeds (c :: r) = feeds r :=
  List.count_cons_of_ne hc

theorem feeds_pos_of_complete {t : Text} (h : Complete t) (ht : t ≠ []) : 0 < feeds t := by
  obtain ⟨a, rfl⟩ := h.exists_eq_append ht
  simp [feeds]

/-! ## Cutting into pieces -/

theorem pieces_feed_cons (r : Text) : pieces ('\n' :: r) = ['\n'] :: pieces r := by simp [pieces]

theorem pieces_ne_nil {t : Text} (h : t ≠ []) : pieces t ≠ [] := by
  cases t with
  | nil => exact absurd rfl h
  | cons c r =>
    simp only [pieces]
    split
    · simp
    · split <;> simp

theorem exists_pieces_cons {t : Text} (h : t ≠ []) : ∃ p ps, pieces t = p :: ps :=
  List.exists_cons_of_ne_nil (pieces_ne_nil h)

theorem pieces_cons_of_ne {c : Char} {r p : Text} {ps : List Text} (hc : c ≠ '\n')
    (h : pieces r = p :: ps) : pieces (c :: r) = (c :: p) :: ps := by
  simp [pieces, hc, h]

theorem flatten_pieces (t : Text) : (pieces t).flatten = t := by
  induction t with
  | nil => rfl
  | cons c r ih =>
    by_cases hc : c = '\n'
    · simp [hc, pieces_feed_cons, ih]
    · by_cases hr : r = []
      · simp [hr, pieces, hc]
      · obtain ⟨p, ps, hp⟩ := exists_pieces_cons hr
        rw [pieces_cons_of_ne hc hp, List.flatten_cons, List.cons_append, ← List.flatten_cons, ← hp,
          ih]

/-- Pieces do not reach across a place where a line begins. -/
theorem pieces_append {a : Text} (h : Complete a) (b : Text) :
    pieces (a ++ b) = pieces a ++ pieces b := by
  induction a with
  | nil => rfl
  | cons c r ih =>
    by_cases hc : c = '\n'
    · subst hc
      simp [pieces_feed_cons, ih ((complete_feed_cons r).mp h)]
    · obtain ⟨hr, hcr⟩ := (complete_cons_of_ne hc).mp h
      obtain ⟨p, ps, hp⟩ := exists_pieces_cons hr
      have hb : pieces (r ++ b) = p :: (ps ++ pieces b) := by rw [ih hcr, hp, List.cons_append]
      rw [List.cons_append, pieces_cons_of_ne hc hb, pieces_cons_of_ne hc hp, List.cons_append]

/-- Lines as a text stores them: only the last of them may lack its line feed. -/
structure Lined (ps : List Text) : Prop where
  single : ∀ p ∈ ps, pieces p = [p]
  complete : ps.Pairwise fun p _ => Complete p

theorem Lined.sublist {ps qs : List Text} (h : Lined ps) (hq : qs.Sublist ps) : Lined qs :=
  ⟨fun p hp => h.single p (hq.subset hp), h.complete.sublist hq⟩

theorem Lined.of_cons {p : Text} {ps : List Text} (h : Lined (p :: ps)) : Lined ps :=
  h.sublist (List.sublist_cons_self p ps)

/-- Joining lines and cutting again gives the lines back. -/
theorem Lined.pieces_flatten {ps : List Text} (h : Lined ps) : pieces ps.flatten = ps := by
  induction ps with
  | nil => rfl
  | cons p ps ih =>
    have hp := h.single p (by simp)
    by_cases hps : ps = []
    · simp [hps, hp]
    · obtain ⟨q, qs, rfl⟩ := List.exists_cons_of_ne_nil hps
      have hc : Complete p := (List.pairwise_cons.mp h.complete).1 q (by simp)
      rw [List.flatten_cons, pieces_append hc, hp, ih h.of_cons, List.singleton_append]

theorem lined_pieces (t : Text) : Lined (pieces t) := by
  induction t with
  | nil => exact ⟨by simp [pieces], by simp [pieces]⟩
  | cons c r ih =>
    by_cases hc : c = '\n'
    · subst hc
      rw [pieces_feed_cons]
      refine ⟨?_, List.pairwise_cons.mpr ⟨fun _ _ => complete_append_feed [], ih.complete⟩⟩
      intro p hp
      rcases List.mem_cons.mp hp with rfl | hp
      · rfl
      · exact ih.single p hp
    · by_cases hr : r = []
      · subst hr
        exact ⟨by simp [pieces, hc], by simp [pieces, hc]⟩
      · obtain ⟨p, ps, hp⟩ := exists_pieces_cons hr
        rw [pieces_cons_of_ne hc hp]
        rw [hp] at ih
        have hpp := ih.single p (by simp)
        have hne : p ≠ [] := by intro e; simp [e, pieces] at hpp
        refine ⟨?_, List.pairwise_cons.mpr ⟨fun q hq => ?_, (List.pairwise_cons.mp ih.complete).2⟩⟩
        · intro q hq
          rcases List.mem_cons.mp hq with rfl | hq
          · exact pieces_cons_of_ne hc hpp
          · exact ih.single q (by simp [hq])
        · exact (complete_cons_of_ne_nil c hne).mpr ((List.pairwise_cons.mp ih.complete).1 q hq)

theorem length_pieces_of_complete {t : Text} (h : Complete t) : (pieces t).length = feeds t := by
  induction t with
  | nil => rfl
  | cons c r ih =>
    by_cases hc : c = '\n'
    · subst hc
      simp [pieces_feed_cons, feeds_feed_cons, ih ((complete_feed_cons r).mp h)]
    · obtain ⟨hr, hcr⟩ := (complete_cons_of_ne hc).mp h
      obtain ⟨p, ps, hp⟩ := exists_pieces_cons hr
      rw [pieces_cons_of_ne hc hp, feeds_cons_of_ne hc, ← ih hcr, hp]
      rfl

theorem length_pieces_of_not_complete {t : Text} (h : ¬ Complete t) :
    (pieces t).length = feeds t + 1 := by
  induction t with
  | nil => exact absurd complete_nil h
  | cons c r ih =>
    by_cases hc : c = '\n'
    · subst hc
      simp [pieces_feed_cons, feeds_feed_cons, ih (mt (complete_feed_cons r).mpr h)]
    · by_cases hr : r = []
      · subst hr
        simp [pieces, hc, feeds]
      · obtain ⟨p, ps, hp⟩ := exists_pieces_cons hr
        have hcr : ¬ Complete r := fun e => h ((complete_cons_of_ne hc).mpr ⟨hr, e⟩)
        rw [pieces_cons_of_ne hc hp, feeds_cons_of_ne hc, ← ih hcr, hp]
        rfl

theorem feeds_le_length_pieces (t : Text) : feeds t ≤ (pieces t).length := by
  by_cases h : Complete t
  · exact Nat.le_of_eq (length_pieces_of_complete h).symm
  · have := length_pieces_of_not_complete h
    omega

/-! ## What stands before and after a line -/

/-- The first `n` stored lines. -/
def lead (n : Nat) (t : Text) : Text := ((pieces t).take n).flatten

/-- The stored lines after the first `n`. -/
def rest (n : Nat) (t : Text) : Text := ((pieces t).drop n).flatten

theorem lead_append_rest (n : Nat) (t : Text) : lead n t ++ rest n t = t := by
  rw [lead, rest, ← List.flatten_append, List.take_append_drop, flatten_pieces]

theorem pieces_lead (n : Nat) (t : Text) : pieces (lead n t) = (pieces t).take n :=
  ((lined_pieces t).sublist (List.take_sublist n _)).pieces_flatten

theorem pieces_rest (n : Nat) (t : Text) : pieces (rest n t) = (pieces t).drop n :=
  ((lined_pieces t).sublist (List.drop_sublist n _)).pieces_flatten

theorem lead_append {a : Text} (h : Complete a) (b : Text) : lead (pieces a).length (a ++ b) = a := by
  rw [lead, pieces_append h, List.take_left, flatten_pieces]

theorem rest_append {a : Text} (h : Complete a) (b : Text) : rest (pieces a).length (a ++ b) = b := by
  rw [rest, pieces_append h, List.drop_left, flatten_pieces]

theorem lead_of_length_le {n : Nat} {t : Text} (h : (pieces t).length ≤ n) : lead n t = t := by
  rw [lead, List.take_of_length_le h, flatten_pieces]

theorem rest_of_length_le {n : Nat} {t : Text} (h : (pieces t).length ≤ n) : rest n t = [] := by
  rw [rest, List.drop_eq_nil_of_le h, List.flatten_nil]

/-- Lines with another one behind them have their line feeds. -/
theorem complete_of_mem_take {n : Nat} {t : Text} (h : n < (pieces t).length) :
    ∀ p ∈ (pieces t).take n, Complete p := by
  have hp := (lined_pieces t).complete
  rw [← List.take_append_drop n (pieces t), List.drop_eq_getElem_cons h] at hp
  intro p hp'
  exact (List.pairwise_append.mp hp).2.2 p hp' _ List.mem_cons_self

theorem complete_lead {n : Nat} {t : Text} (h : n ≤ feeds t) : Complete (lead n t) := by
  have hl := feeds_le_length_pieces t
  by_cases hn : n < (pieces t).length
  · exact complete_flatten (complete_of_mem_take hn)
  · rw [lead_of_length_le (by omega)]
    by_cases ht : Complete t
    · exact ht
    · have := length_pieces_of_not_complete ht
      omega

theorem feeds_lead {n : Nat} {t : Text} (h : n ≤ feeds t) : feeds (lead n t) = n := by
  have hl := feeds_le_length_pieces t
  rw [← length_pieces_of_complete (complete_lead h), pieces_lead, List.length_take]
  omega

theorem rest_ne_nil {n : Nat} {t : Text} (h : n < (pieces t).length) : rest n t ≠ [] := by
  intro e
  have := pieces_rest n t
  rw [e, List.drop_eq_getElem_cons h] at this
  cases this

theorem complete_rest {t : Text} (h : Complete t) (n : Nat) : Complete (rest n t) := by
  by_cases hr : rest n t = []
  · rw [hr]
    exact complete_nil
  · rwa [← complete_append_of_ne_nil (lead n t) hr, lead_append_rest]

/-- The last stored line; a text without lines has an empty one. -/
def lastPiece (t : Text) : Text := (pieces t).getLast?.getD []

theorem lastPiece_eq_getElem? (t : Text) :
    lastPiece t = (pieces t)[(pieces t).length - 1]?.getD [] := by
  rw [lastPiece, List.getLast?_eq_getElem?]

theorem dropLast_append_lastPiece (t : Text) : (pieces t).dropLast.flatten ++ lastPiece t = t := by
  by_cases h : t = []
  · subst h
    rfl
  · have hne := pieces_ne_nil h
    have hl : lastPiece t = (pieces t).getLast hne := by
      rw [lastPiece, List.getLast?_eq_some_getLast hne, Option.getD_some]
    calc (pieces t).dropLast.flatten ++ lastPiece t
        = ((pieces t).dropLast ++ [(pieces t).getLast hne]).flatten := by simp [hl]
      _ = t := by rw [List.dropLast_concat_getLast, flatten_pieces]

theorem lastPiece_subset (t : Text) : lastPiece t ⊆ t := by
  have h := List.subset_append_right (pieces t).dropLast.flatten (lastPiece t)
  rwa [dropLast_append_lastPiece] at h

theorem lastPiece_append {a b : Text} (ha : Complete a) (hb : b ≠ []) :
    lastPiece (a ++ b) = lastPiece b := by
  rw [lastPiece, lastPiece, pieces_append ha, List.getLast?_append,
    List.getLast?_eq_some_getLast (pieces_ne_nil hb), Option.some_or]

theorem lastPiece_rest {n : Nat} {t : Text} (h : n < (pieces t).length) :
    lastPiece (rest n t) = lastPiece t := by
  have hl : Complete (lead n t) := complete_flatten (complete_of_mem_take h)
  rw [← lastPiece_append hl (rest_ne_nil h), lead_append_rest]

theorem lastPiece_ne_nil {t : Text} (h : t ≠ []) : lastPiece t ≠ [] := by
  have hne := pieces_ne_nil h
  have hs := (lined_pieces t).single _ (List.getLast_mem hne)
  intro e
  rw [lastPiece, List.getLast?_eq_some_getLast hne, Option.getD_some] at e
  rw [e] at hs
  cases hs

theorem complete_lastPiece {t : Text} : Complete (lastPiece t) ↔ Complete t := by
  by_cases h : t = []
  · subst h
    exact Iff.rfl
  · have hc := complete_append_of_ne_nil (pieces t).dropLast.flatten (lastPiece_ne_nil h)
    rw [dropLast_append_lastPiece] at hc
    exact hc.symm

theorem feeds_lastPiece {t : Text} (hc : Complete t) (h : t ≠ []) : feeds (lastPiece t) = 1 := by
  have hne := pieces_ne_nil h
  have hs := (lined_pieces t).single _ (List.getLast_mem hne)
  rw [← length_pieces_of_complete (complete_lastPiece.mpr hc), lastPiece,
    List.getLast?_eq_some_getLast hne, Option.getD_some, hs]
  rfl

/-! ## Reading a line -/

theorem firstPiece_eq_head (t : Text) : firstPiece t = (pieces t).head?.getD [] := by
  induction t with
  | nil => rfl
  | cons c r ih =>
    by_cases hc : c = '\n'
    · simp [hc, firstPiece, pieces_feed_cons]
    · by_cases hr : r = []
      · simp [hr, firstPiece, pieces, hc]
      · obtain ⟨p, ps, hp⟩ := exists_pieces_cons hr
        simp [firstPiece, hc, ih, pieces_cons_of_ne hc hp, hp]

theorem firstPiece_rest (n : Nat) (t : Text) : firstPiece (rest n t) = (pieces t)[n]?.getD [] := by
  rw [firstPiece_eq_head, pieces_rest, List.head?_drop]

theorem dropFeed_nil : dropFeed [] = [] := rfl

theorem dropFeed_append_feed (a : Text) : dropFeed (a ++ ['\n']) = a := by
  have h : ['\n'].isSuffixOf (a ++ ['\n']) = true := List.isSuffixOf_iff_suffix.mpr ⟨a, rfl⟩
  simp [dropFeed, dropSuffix?, h]

theorem dropFeed_of_not_complete {t : Text} (h : ¬ Complete t) : dropFeed t = t := by
  have hs : ¬ ['\n'].isSuffixOf t = true := by
    intro e
    obtain ⟨a, rfl⟩ := List.isSuffixOf_iff_suffix.mp e
    exact h (complete_append_feed a)
  simp [dropFeed, dropSuffix?, hs]

/-- A line feed at the end is no longer there, and nothing else is lost. -/
theorem dropFeed_cons_of_ne {c : Char} (hc : c ≠ '\n') (r : Text) :
    dropFeed (c :: r) = c :: dropFeed r := by
  by_cases h : Complete r ∧ r ≠ []
  · obtain ⟨a, rfl⟩ := h.1.exists_eq_append h.2
    rw [dropFeed_append_feed, ← List.cons_append, dropFeed_append_feed]
  · have hcr : ¬ Complete (c :: r) := fun e => h ((complete_cons_of_ne hc).mp e).symm
    rw [dropFeed_of_not_complete hcr]
    by_cases hr : r = []
    · rw [hr, dropFeed_nil]
    · rw [dropFeed_of_not_complete fun e => h ⟨e, hr⟩]

theorem mem_dropFeed {c : Char} (hc : c ≠ '\n') (t : Text) : c ∈ dropFeed t ↔ c ∈ t := by
  by_cases h : Complete t ∧ t ≠ []
  · obtain ⟨a, rfl⟩ := h.1.exists_eq_append h.2
    simp [dropFeed_append_feed, hc]
  · by_cases ht : t = []
    · rw [ht, dropFeed_nil]
    · rw [dropFeed_of_not_complete fun e => h ⟨e, ht⟩]

theorem contains_dropFeed {c : Char} (hc : c ≠ '\n') (t : Text) :
    (dropFeed t).contains c = t.contains c := by
  rw [Bool.eq_iff_iff, List.contains_iff_mem, List.contains_iff_mem]
  exact mem_dropFeed hc t

/-! ## Fields and pieces -/

theorem fields_feed_cons (r : Text) : fields '\n' ('\n' :: r) = [] :: fields '\n' r := by
  simp [fields]

theorem exists_fields_cons (ch : Char) (t : Text) : ∃ f fs, fields ch t = f :: fs := by
  cases t with
  | nil => exact ⟨[], [], rfl⟩
  | cons c r =>
    simp only [fields]
    split
    · exact ⟨_, _, rfl⟩
    · split <;> exact ⟨_, _, rfl⟩

theorem fields_cons_of_ne {c ch : Char} {r f : Text} {fs : List Text} (hc : c ≠ ch)
    (h : fields ch r = f :: fs) : fields ch (c :: r) = (c :: f) :: fs := by
  simp [fields, hc, h]

theorem fields_append {ch : Char} (a b : Text) :
    fields ch (a ++ ch :: b) = fields ch a ++ fields ch b := by
  induction a with
  | nil => simp [fields]
  | cons c a ih =>
    by_cases hc : c = ch
    · simp only [List.cons_append, fields, hc, if_true, ih]
    · obtain ⟨f, fs, hf⟩ := exists_fields_cons ch a
      rw [hf] at ih
      rw [List.cons_append, fields_cons_of_ne hc ih, fields_cons_of_ne hc hf]
      rfl

theorem length_fields_eq_count (ch : Char) (t : Text) :
    (fields ch t).length = t.count ch + 1 := by
  induction t with
  | nil => rfl
  | cons c r ih =>
    by_cases hc : c = ch
    · simp [fields, hc, ih]
    · obtain ⟨f, fs, hf⟩ := exists_fields_cons ch r
      rw [fields_cons_of_ne hc hf, List.count_cons_of_ne hc, ← ih, hf]
      rfl

theorem length_fields (t : Text) : (fields '\n' t).length = feeds t + 1 :=
  length_fields_eq_count '\n' t

/-- A field is a stored line without its line feed, and the empty one at the end is none. -/
theorem fields_getElem? {n : Nat} {t : Text} (h : n ≤ feeds t) :
    (fields '\n' t)[n]? = some (dropFeed ((pieces t)[n]?.getD [])) := by
  induction t generalizing n with
  | nil =>
    obtain rfl : n = 0 := by simpa using h
    rfl
  | cons c r ih =>
    by_cases hc : c = '\n'
    · subst hc
      rw [fields_feed_cons, pieces_feed_cons]
      cases n with
      | zero => rfl
      | succ n =>
        rw [feeds_feed_cons] at h
        simpa using ih (Nat.le_of_succ_le_succ h)
    · rw [feeds_cons_of_ne hc] at h
      obtain ⟨f, fs, hf⟩ := exists_fields_cons '\n' r
      rw [fields_cons_of_ne hc hf]
      rw [hf] at ih
      by_cases hr : r = []
      · subst hr
        obtain rfl : n = 0 := by simpa using h
        cases hf
        simp [pieces, hc, dropFeed_cons_of_ne hc, dropFeed_nil]
      · obtain ⟨p, ps, hp⟩ := exists_pieces_cons hr
        rw [pieces_cons_of_ne hc hp]
        rw [hp] at ih
        cases n with
        | zero =>
          have hfp : f = dropFeed p := by simpa using ih (Nat.zero_le _)
          simp [dropFeed_cons_of_ne hc, hfp]
        | succ n => simpa using ih h

end LineRepl.Text
