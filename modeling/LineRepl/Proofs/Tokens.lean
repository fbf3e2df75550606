import LineRepl.Proofs.StoredLines
import LineRepl.Text.Blank
import LineRepl.Text.Number
import Mathlib.Data.List.TakeWhile

/-! Text as tokens with blanks around them. What trimming removes, what the first token is and what
the words are is stated on texts that are put together from runs of blanks and parts that begin and end
in something else. -/
namespace LineRepl.Text

/-- Nothing but blanks. -/
def Blank (t : Text) : Prop := ∀ c ∈ t, isBlank c = true

instance (t : Text) : Decidable (Blank t) :=
  decidable_of_iff (t.all isBlank = true) List.all_eq_true

/-- No blank comes first. -/
def OpensSolid (t : Text) : Prop := ∀ c ∈ t.head?, isBlank c = false

instance (t : Text) : Decidable (OpensSolid t) :=
  decidable_of_iff (t.head?.all (!isBlank ·) = true) (by simp [OpensSolid, Option.all_eq_true])

/-- No blank comes last. -/
def ClosesSolid (t : Text) : Prop := ∀ c ∈ t.getLast?, isBlank c = false

instance (t : Text) : Decidable (ClosesSolid t) :=
  decidable_of_iff (t.getLast?.all (!isBlank ·) = true) (by simp [ClosesSolid, Option.all_eq_true])

/-- If anything comes first, it is a blank. -/
def OpensBlank (t : Text) : Prop := ∀ c ∈ t.head?, isBlank c = true

/-- Text that has no blanks around it. There may be some in it. -/
structure Part (t : Text) : Prop where
  ne_nil : t ≠ []
  opens : OpensSolid t
  closes : ClosesSolid t

/-- Text without blanks. -/
structure Token (t : Text) : Prop where
  ne_nil : t ≠ []
  solid : ∀ c ∈ t, isBlank c = false

variable {gap t rest w : Text}

theorem Token.part (h : Token t) : Part t where
  ne_nil := h.ne_nil
  opens c hc := h.solid c (List.mem_of_mem_head? hc)
  closes c hc := h.solid c (List.mem_of_mem_getLast? hc)

/-! ## Runs in front of a text -/

section Runs

variable {p : Char → Bool} {front : Text}

/-- A run of characters of one kind ends where another kind begins. -/
theorem takeWhile_append_run (hf : ∀ c ∈ front, p c = true) (hr : ∀ c ∈ rest.head?, p c = false) :
    (front ++ rest).takeWhile p = front := by
  have hnil : rest.takeWhile p = [] := by
    cases rest with
    | nil => rfl
    | cons c r => exact List.takeWhile_cons_of_neg (ne_true_of_eq_false (hr c rfl))
  rw [List.takeWhile_append_of_pos hf, hnil, List.append_nil]

theorem dropWhile_append_run (hf : ∀ c ∈ front, p c = true) (hr : ∀ c ∈ rest.head?, p c = false) :
    (front ++ rest).dropWhile p = rest := by
  rw [List.dropWhile_append_of_pos hf]
  cases rest with
  | nil => rfl
  | cons c r => exact List.dropWhile_cons_of_neg (ne_true_of_eq_false (hr c rfl))

end Runs

/-! ## Ends of a text -/

theorem opensSolid_append (h : OpensSolid t) (ht : t ≠ []) (a : Text) : OpensSolid (t ++ a) := by
  cases t with
  | nil => exact absurd rfl ht
  | cons c r => exact h

theorem closesSolid_append_iff (ht : t ≠ []) (a : Text) : ClosesSolid (a ++ t) ↔ ClosesSolid t := by
  unfold ClosesSolid
  rw [List.getLast?_append, List.getLast?_eq_some_getLast ht]
  rfl

theorem ClosesSolid.of_suffix (h : ClosesSolid t) (hs : rest <:+ t) : ClosesSolid rest := by
  obtain ⟨a, rfl⟩ := hs
  cases rest with
  | nil => exact nofun
  | cons c r => exact (closesSolid_append_iff (List.cons_ne_nil c r) a).mp h

/-! ## Trimming -/

theorem trimStart_of_opensSolid (h : OpensSolid t) : trimStart t = t := by
  cases t with
  | nil => rfl
  | cons c r => exact List.dropWhile_cons_of_neg (by simp [h c rfl])

theorem trimStart_append (h : Blank gap) (t : Text) : trimStart (gap ++ t) = trimStart t :=
  List.dropWhile_append_of_pos h

theorem opensSolid_trimStart (t : Text) : OpensSolid (trimStart t) := by
  intro c hc
  have h := List.head?_dropWhile_not isBlank t
  rw [show (t.dropWhile isBlank).head? = some c from hc] at h
  simpa using h

theorem trimStart_suffix (t : Text) : trimStart t <:+ t := List.dropWhile_suffix _

theorem trimEnd_of_closesSolid (h : ClosesSolid t) : trimEnd t = t := by
  have hr : OpensSolid t.reverse := by
    intro c hc
    rw [List.head?_reverse] at hc
    exact h c hc
  have := trimStart_of_opensSolid hr
  unfold trimStart at this
  rw [trimEnd, this, List.reverse_reverse]

theorem trimEnd_append (h : Blank gap) (t : Text) : trimEnd (t ++ gap) = trimEnd t := by
  have hr : Blank gap.reverse := by
    intro c hc
    exact h c (List.mem_reverse.mp hc)
  have := trimStart_append hr t.reverse
  unfold trimStart at this
  rw [trimEnd, List.reverse_append, this, trimEnd]

theorem closesSolid_trimEnd (t : Text) : ClosesSolid (trimEnd t) := by
  intro c hc
  rw [trimEnd, List.getLast?_reverse] at hc
  exact opensSolid_trimStart t.reverse c hc

/-- Trimming leaves nothing of blanks, and something of any other text. -/
theorem trim_eq_nil_iff {t : Text} : trim t = [] ↔ t.allBlank = true := by
  have hend (u : Text) : trimEnd u = [] ↔ ∀ c ∈ u, isBlank c = true := by
    rw [trimEnd, List.reverse_eq_nil_iff, List.dropWhile_eq_nil_iff]
    simp only [List.mem_reverse]
  rw [trim, hend, allBlank, List.all_eq_true]
  refine ⟨fun h => ?_, fun h c hc => h c ((trimStart_suffix t).mem hc)⟩
  cases hu : trimStart t with
  | nil => exact List.dropWhile_eq_nil_iff.mp hu
  | cons c r =>
    rw [hu] at h
    have hsolid := opensSolid_trimStart t c (by rw [hu]; rfl)
    rw [h c List.mem_cons_self] at hsolid
    cases hsolid

theorem allBlank_trim (t : Text) : (trim t).allBlank = t.allBlank := by
  rw [Bool.eq_iff_iff, ← trim_eq_nil_iff (t := t)]
  refine ⟨fun h => ?_, fun h => by rw [h]; rfl⟩
  cases hl : (trim t).getLast? with
  | none => exact List.getLast?_eq_none_iff.mp hl
  | some c =>
    have hsolid := closesSolid_trimEnd (trimStart t) c hl
    rw [List.all_eq_true.mp h c (List.mem_of_mem_getLast? hl)] at hsolid
    cases hsolid

/-- Trimming removes the blanks around a part and nothing else. -/
theorem trim_append {lead tail : Text} (hl : Blank lead) (ht : Part t) (hb : Blank tail) :
    trim (lead ++ (t ++ tail)) = t := by
  have ho := opensSolid_append ht.opens ht.ne_nil tail
  rw [trim, trimStart_append hl, trimStart_of_opensSolid ho, trimEnd_append hb,
    trimEnd_of_closesSolid ht.closes]

/-! ## Tokens -/

/-- What comes before the first blank. -/
def firstToken (t : Text) : Text := t.takeWhile (!isBlank ·)

theorem splitToken_of_opensSolid (h : OpensSolid t) (ht : t ≠ []) :
    splitToken t = some (t.firstToken, trimStart (t.dropWhile (!isBlank ·))) := by
  rw [splitToken, trimStart_of_opensSolid h]
  cases t with
  | nil => exact absurd rfl ht
  | cons c r => rfl

/-- The first token ends where a blank begins. -/
theorem splitToken_append (hg : Blank gap) (hw : Token w) (hr : OpensBlank rest) :
    splitToken (gap ++ (w ++ rest)) = some (w, trimStart rest) := by
  have hs : ∀ c ∈ w, (!isBlank c) = true := by
    intro c hc
    rw [hw.solid c hc]
    rfl
  have hb : ∀ c ∈ rest.head?, (!isBlank c) = false := by
    intro c hc
    rw [hr c hc]
    rfl
  have ho := opensSolid_append hw.part.opens hw.ne_nil rest
  have hne : w ++ rest ≠ [] := fun h => hw.ne_nil (List.append_eq_nil_iff.mp h).1
  have h := splitToken_of_opensSolid ho hne
  rw [firstToken, takeWhile_append_run hs hb, dropWhile_append_run hs hb] at h
  rw [← h, splitToken, trimStart_append hg, splitToken]

/-- What follows the first token begins with the next one, and ends the text. -/
theorem splitToken_rest (h : splitToken t = some (w, rest)) : OpensSolid rest ∧ rest <:+ t := by
  unfold splitToken at h
  split at h
  · cases h
  · rename_i hs
    cases h
    refine ⟨opensSolid_trimStart _, ?_⟩
    exact (trimStart_suffix _).trans ((List.dropWhile_suffix _).trans (trimStart_suffix t))

/-! ## Words -/

theorem words_cons (c : Char) (r : Text) : words (c :: r) =
    if isBlank c then words r
    else match r with
      | [] => [[c]]
      | d :: _ =>
        if isBlank d then [c] :: words r
        else match words r with
          | [] => [[c]]
          | w :: ws => (c :: w) :: ws := by
  cases r <;> rfl

theorem words_append (hw : Token w) (hr : OpensBlank rest) :
    words (w ++ rest) = w :: words rest := by
  obtain ⟨hn, hs⟩ := hw
  induction w with
  | nil => exact absurd rfl hn
  | cons c w ih =>
    have hc : ¬ isBlank c = true := ne_true_of_eq_false (hs c List.mem_cons_self)
    have hw : ∀ d ∈ w, isBlank d = false := fun d hd => hs d (List.mem_cons_of_mem c hd)
    -- The character after the first one decides whether the word goes on.
    cases w with
    | nil =>
      rw [List.singleton_append, words_cons, if_neg hc]
      cases rest with
      | nil => rfl
      | cons d r => exact if_pos (hr d rfl)
    | cons d w =>
      have ih := ih (List.cons_ne_nil d w) hw
      have hd : ¬ isBlank d = true := ne_true_of_eq_false (hw d List.mem_cons_self)
      rw [List.cons_append] at ih
      rw [List.cons_append, List.cons_append, words_cons, if_neg hc]
      dsimp only
      rw [if_neg hd, ih]

theorem words_token (hw : Token w) : words w = [w] := by
  have h : words (w ++ []) = w :: words [] := words_append hw nofun
  rwa [List.append_nil] at h

theorem words_trimStart (t : Text) : words (trimStart t) = words t := by
  induction t with
  | nil => rfl
  | cons c r ih =>
    unfold trimStart at *
    cases hc : isBlank c with
    | true => rw [List.dropWhile_cons_of_pos hc, ih, words_cons, if_pos hc]
    | false => rw [List.dropWhile_cons_of_neg (ne_true_of_eq_false hc)]

theorem words_of_splitToken_none (h : splitToken t = none) : words t = [] := by
  rw [← words_trimStart]
  unfold splitToken at h
  split at h
  · rename_i ht
    rw [ht]
    rfl
  · cases h

/-- The first token is the first word, and the other words are those of what follows it. -/
theorem words_of_splitToken (h : splitToken t = some (w, rest)) : words t = w :: words rest := by
  have ho := opensSolid_trimStart t
  unfold splitToken at h
  split at h
  · cases h
  · rename_i ht
    cases h
    have hw : Token ((trimStart t).takeWhile (!isBlank ·)) := by
      constructor
      · cases hs : trimStart t with
        | nil => exact absurd hs ht
        | cons c r =>
          rw [hs] at ho
          rw [List.takeWhile_cons_of_pos (by simp [ho c rfl])]
          exact List.cons_ne_nil _ _
      · intro c hc
        simpa using List.all_eq_true.mp List.all_takeWhile c hc
    have hr : OpensBlank ((trimStart t).dropWhile (!isBlank ·)) := by
      intro c hc
      have hn := List.head?_dropWhile_not (!isBlank ·) (trimStart t)
      rw [show ((trimStart t).dropWhile (!isBlank ·)).head? = some c from hc] at hn
      simpa using hn
    rw [words_trimStart, ← words_append hw hr, List.takeWhile_append_dropWhile, words_trimStart]

/-! ## Fields -/

theorem fields_of_notMem {ch : Char} (h : ch ∉ t) : fields ch t = [t] := by
  induction t with
  | nil => rfl
  | cons c t ih =>
    have hc : c ≠ ch := fun hc => h (hc ▸ List.mem_cons_self)
    exact fields_cons_of_ne hc (ih fun ht => h (List.mem_cons_of_mem c ht))

theorem fields_append_cons {ch : Char} (h : ch ∉ t) (u : Text) :
    fields ch (t ++ ch :: u) = t :: fields ch u := by
  rw [fields_append, fields_of_notMem h]
  rfl

/-! ## Numbers -/

/-- A number in decimal, behind any number of zeros. -/
def SpellsNumber (n : Nat) (t : Text) : Prop := ∃ zeros, t = List.replicate zeros '0' ++ decimal n

theorem spellsNumber_decimal (n : Nat) : SpellsNumber n (decimal n) := ⟨0, rfl⟩

variable {n : Nat}

theorem SpellsNumber.isDigit (h : SpellsNumber n t) : ∀ c ∈ t, c.isDigit = true := by
  obtain ⟨zeros, rfl⟩ := h
  intro c hc
  rcases List.mem_append.mp hc with hc | hc
  · rw [List.eq_of_mem_replicate hc]
    decide
  · exact Nat.isDigit_of_mem_toDigits (by decide) (by decide) hc

theorem SpellsNumber.ne_nil (h : SpellsNumber n t) : t ≠ [] := by
  obtain ⟨zeros, rfl⟩ := h
  exact fun h => Nat.toDigits_ne_nil (List.append_eq_nil_iff.mp h).2

theorem SpellsNumber.isNumber (h : SpellsNumber n t) : t.isNumber = true := by
  have ht : t.isEmpty = false := by simpa using h.ne_nil
  rw [Text.isNumber, ht, List.all_eq_true.mpr h.isDigit]
  rfl

theorem ofDigitChars_zeros (zeros : Nat) : Nat.ofDigitChars 10 (List.replicate zeros '0') 0 = 0 := by
  induction zeros with
  | zero => rfl
  | succ zeros ih =>
    rw [List.replicate_succ, Nat.ofDigitChars_cons]
    exact ih

theorem SpellsNumber.value (h : SpellsNumber n t) : t.value = n := by
  obtain ⟨zeros, rfl⟩ := h
  rw [Text.value, Nat.ofDigitChars_append, ofDigitChars_zeros]
  exact Nat.ofDigitChars_toDigits (by decide) (by decide)

theorem SpellsNumber.number? (h : SpellsNumber n t) (hn : n < wordLimit) :
    t.number? = some n := by
  rw [Text.number?, h.isNumber, h.value, decide_eq_true hn]
  rfl

theorem lt_of_number? (h : t.number? = some n) : n < wordLimit := by
  unfold Text.number? at h
  split at h
  · rename_i hv
    cases h
    exact of_decide_eq_true (Bool.and_eq_true_iff.mp hv).2
  · cases h

/-- ASCII digits whose value is a machine word. -/
def NamesLine (t : Text) : Prop := t.isNumber = true ∧ t.value < wordLimit

theorem number?_eq_none_iff : t.number? = none ↔ ¬ t.NamesLine := by
  unfold Text.number? NamesLine
  rw [ite_eq_right_iff]
  simp

theorem namesLine_of_number? (h : t.number? = some n) : t.NamesLine := by
  refine Classical.byContradiction fun hn => ?_
  rw [number?_eq_none_iff.mpr hn] at h
  cases h

theorem eq_of_splitFirst {ch : Char} {a b : Text} (h : splitFirst ch t = some (a, b)) :
    t = a ++ ch :: b := by
  induction t generalizing a with
  | nil => cases h
  | cons c t ih =>
    unfold splitFirst at h
    split at h
    · rename_i hc
      cases h
      rw [hc, List.nil_append]
    · obtain ⟨⟨a', b'⟩, ht, he⟩ := Option.map_eq_some_iff.mp h
      cases he
      rw [ih ht, List.cons_append]

theorem splitFirst_append {ch : Char} {a : Text} (h : ch ∉ a) (b : Text) :
    splitFirst ch (a ++ ch :: b) = some (a, b) := by
  induction a with
  | nil => exact if_pos rfl
  | cons c a ih =>
    obtain ⟨hc, ha⟩ := not_or.mp (mt List.mem_cons.mpr h)
    rw [List.cons_append, splitFirst, if_neg (Ne.symm hc), ih ha]
    rfl

theorem hyphen_notMem_of_isNumber (h : t.isNumber = true) : '-' ∉ t := fun hm =>
  absurd (List.all_eq_true.mp (Bool.and_eq_true_iff.mp h).2 _ hm) (by decide)

/-- A range is digits, a hyphen and digits. -/
theorem isRange_iff : t.isRange = true ↔
    ∃ a b : Text, a.isNumber = true ∧ b.isNumber = true ∧ t = a ++ '-' :: b := by
  unfold isRange
  constructor
  · intro h
    split at h
    · rename_i a b hs
      obtain ⟨ha, hb⟩ := Bool.and_eq_true_iff.mp h
      exact ⟨a, b, ha, hb, eq_of_splitFirst hs⟩
    · cases h
  · rintro ⟨a, b, ha, hb, rfl⟩
    rw [splitFirst_append (hyphen_notMem_of_isNumber ha)]
    exact Bool.and_eq_true_iff.mpr ⟨ha, hb⟩

theorem not_isRange_of_isNumber (h : t.isNumber = true) : ¬ t.isRange = true := by
  intro hr
  obtain ⟨a, b, -, -, rfl⟩ := isRange_iff.mp hr
  exact hyphen_notMem_of_isNumber h (by simp)

theorem isBlank_of_isDigit {c : Char} (h : c.isDigit = true) : isBlank c = false := by
  obtain ⟨hl, hu⟩ := Char.isDigit_iff_toNat.mp h
  have hl : 48 ≤ c.toNat := hl
  have hu : c.toNat ≤ 57 := hu
  unfold isBlank
  simp only [Bool.or_eq_false_iff, Bool.and_eq_false_iff, decide_eq_false_iff_not,
    beq_eq_false_iff_ne]
  omega

theorem SpellsNumber.token (h : SpellsNumber n t) : Token t where
  ne_nil := h.ne_nil
  solid c hc := isBlank_of_isDigit (h.isDigit c hc)

theorem SpellsNumber.hyphen_notMem (h : SpellsNumber n t) : '-' ∉ t :=
  fun hc => absurd (h.isDigit _ hc) (by decide)

end LineRepl.Text
