import LineRepl.Proofs.BufferPages
import LineRepl.Proofs.Spellings

/-! Removing lines inside a program. As long as the last stored line stays and has a closing brace,
`del` takes out the lines that it names and no others, and the program is not closed again. A line
that is not there removes nothing, however large its number: the sums that say where the removed
lines end stop at the largest word, which no text has as many lines as. -/
namespace LineRepl

open Attempt Buffer

/-! ## Words -/

/-- The sum of two words, or the largest word when the sum is none. -/
def addWords (a b : Nat) : Nat := min (a + b) (wordLimit - 1)

/-- Where the removed ones of `count` lines end, as words are added. -/
def removalEnd (start size count : Nat) : Nat :=
  min (addWords (addWords (start - 1) size) 1) count

/-- The numbers that removing lines comes by are words, and the range that is taken out of the lines
lies within them and is the one that is meant. -/
structure RemovesWithin (start size : Nat) (lines : List Text) : Prop where
  start_lt : start < wordLimit
  size_lt : size < wordLimit
  begins : 1 ≤ start → start ≤ lines.length → start - 1 < removalEnd start size lines.length
  ends : removalEnd start size lines.length ≤ lines.length
  takesOut : 1 ≤ start → lines.drop (removalEnd start size lines.length) = lines.drop (start + size)

theorem removalEnd_eq {start size count : Nat} (hs : 1 ≤ start) (hc : count < wordLimit) :
    removalEnd start size count = min (start + size) count := by
  simp only [removalEnd, addWords, wordLimit] at *
  omega

theorem drop_removalEnd {start size : Nat} {lines : List Text} (hs : 1 ≤ start)
    (hc : lines.length < wordLimit) :
    lines.drop (removalEnd start size lines.length) = lines.drop (start + size) := by
  rw [removalEnd_eq hs hc]
  by_cases hl : start + size ≤ lines.length
  · rw [Nat.min_eq_left hl]
  · have hle := Nat.le_of_not_le hl
    rw [Nat.min_eq_right hle, List.drop_length, List.drop_eq_nil_of_le hle]

theorem deletion_words {cursor start size : Nat} {arg : Option LineArg}
    (hd : Statement.deletion cursor arg = (start, size)) (hc : cursor < wordLimit)
    (ha : ∀ a ∈ arg, a.InRange) : start < wordLimit ∧ size < wordLimit := by
  obtain _ | n | ⟨first, last⟩ := arg <;> obtain ⟨rfl, rfl⟩ := Prod.mk.inj hd
  · exact ⟨hc, by decide⟩
  · exact ⟨ha _ rfl, by decide⟩
  · obtain ⟨hf, hl⟩ : first < wordLimit ∧ last < wordLimit := ha _ rfl
    refine ⟨hf, ?_⟩
    simp only [wordLimit] at *
    omega

/-! ## Pages -/

namespace Page

variable {p : Page} {arg : Option LineArg} {start size : Nat}

/-- Lines inside a text that ends in a line feed are removed and the cursor goes to the first of
them. -/
theorem shortened_of_interior (hd : Statement.deletion p.cursor arg = (start, size))
    (hc : p.text.Complete) (hs : 1 ≤ start) (hl : start + size < p.text.pieces.length) :
    p.shortened arg =
      ⟨p.text.lead (start - 1) ++ p.text.rest (start + size), start, p.mode⟩ := by
  have hlen := Text.length_pieces_of_complete hc
  have hrest := Text.feeds_pos_of_complete (Text.complete_rest hc _) (Text.rest_ne_nil hl)
  have hcur : 1 ≤ start ∧ start < (p.without start size).settle.lineCount := by
    refine ⟨hs, ?_⟩
    rw [settle_lineCount, without_of_pos hs, lineCount, Text.feeds_append,
      Text.feeds_lead (by omega)]
    omega
  simp only [shortened, hd, setCursor, if_pos hcur]
  rw [without_of_pos hs]
  rfl

theorem lastPiece_without_interior (h : start - 1 ≤ p.text.feeds)
    (hl : start + size < p.text.pieces.length) :
    (p.text.lead (start - 1) ++ p.text.rest (start + size)).lastPiece = p.text.lastPiece := by
  rw [Text.lastPiece_append (Text.complete_lead h) (Text.rest_ne_nil hl), Text.lastPiece_rest hl]

/-- The brace of the last line stays, so that nothing is closed again. -/
theorem deleted_of_interior (hd : Statement.deletion p.cursor arg = (start, size))
    (hc : p.text.Complete) (hb : closingBrace ∈ p.text.lastPiece) (hs : 1 ≤ start)
    (hl : start + size < p.text.pieces.length) :
    p.deleted arg = ⟨p.text.lead (start - 1) ++ p.text.rest (start + size), start, p.mode⟩ := by
  have hlen := Text.length_pieces_of_complete hc
  have hstart : start - 1 ≤ p.text.feeds := by omega
  have hlast := lastPiece_without_interior hstart hl
  simp only [deleted, shortened_of_interior hd hc hs hl, hlast, List.contains_iff_mem.mpr hb,
    if_true]

/-- A line that is not there removes nothing. -/
theorem deleted_of_lacks (hd : Statement.deletion p.cursor arg = (start, size)) (hp : p.InRange)
    (hb : closingBrace ∈ p.text.lastPiece) (hn : p.Lacks start) : p.deleted arg = p := by
  have hq : p.shortened arg = p := by
    simp only [shortened, hd, hn.without_eq, hp.settle_eq, hn.setCursor_eq]
  simp only [deleted, hq, List.contains_iff_mem.mpr hb, if_true]

end Page

/-! ## Buffers -/

namespace Buffer

variable {σ : Type} {holds : σ → Text → Prop} {b : Buffer σ} {K : Text}

theorem Consistent.cursor_lt_wordLimit (h : Consistent holds b K)
    (hw : K.pieces.length < wordLimit) : b.cursor < wordLimit := by
  have hf := Text.feeds_le_length_pieces K
  have hc := h.cursor_le
  rw [h.lineCount] at hc
  simp only [wordLimit] at *
  omega

theorem Consistent.removesWithin (h : Consistent holds b K) (hw : K.pieces.length < wordLimit)
    {arg : Option LineArg} (ha : ∀ a ∈ arg, a.InRange) {start size : Nat}
    (hd : Statement.deletion b.cursor arg = (start, size)) :
    RemovesWithin start size K.pieces := by
  obtain ⟨hs, hz⟩ := deletion_words hd (h.cursor_lt_wordLimit hw) ha
  refine ⟨hs, hz, fun h1 hl => ?_, Nat.min_le_right _ _, fun h1 => drop_removalEnd h1 hw⟩
  rw [removalEnd_eq h1 hw]
  omega

variable [TextStore σ]

/-- **Removing lines inside a program removes just these lines.** For each argument of `del`: lines
before the last one go, all others stay in order, and the cursor is on the first line behind them; a
line that is not there changes nothing. All of this holds of any numbers, and of those that are words
no sum leaves the words and no range the lines. -/
theorem delete_interior_exact (k : Reliable holds) (h : Consistent holds b K) (hc : K.Complete)
    (hb : closingBrace ∈ K.lastPiece) (skeleton : Text) (arg : Option LineArg)
    (body : Option Text) {start size : Nat}
    (hd : Statement.deletion b.cursor arg = (start, size)) :
    ∃ b' u, Statement.run skeleton ⟨.delete, arg, body⟩ b = .ok .done b' ∧
      Consistent holds b' u ∧ b'.mode = b.mode ∧
      (1 ≤ start → start + size < K.pieces.length →
        u.pieces = K.pieces.take (start - 1) ++ K.pieces.drop (start + size) ∧
          b'.cursor = start) ∧
      (start = 0 ∨ K.pieces.length < start → u = K ∧ b'.cursor = b.cursor) ∧
      (K.pieces.length < wordLimit → (∀ a ∈ arg, a.InRange) → RemovesWithin start size K.pieces) := by
  obtain ⟨_, b', hr, rfl, hs'⟩ := (run_ends k h.shows h.inRange skeleton
    ⟨.delete, arg, body⟩).exists_ok fun _ _ ⟨_, hf⟩ => hf
  have h' : Shows holds b' (Page.deleted arg ⟨K, b.cursor, b.mode⟩) := hs'
  refine ⟨b', _, hr, h'.consistent (Page.deleted_inRange arg _),
    h'.mode.trans (Page.deleted_mode arg _), ?_, ?_, fun hw ha => h.removesWithin hw ha hd⟩
  · intro hs hl
    have hp := Page.deleted_of_interior (p := ⟨K, b.cursor, b.mode⟩) hd hc hb hs hl
    have hlen := Text.length_pieces_of_complete hc
    refine ⟨?_, h'.cursor.trans (congrArg Page.cursor hp)⟩
    have hlead := Text.complete_lead (t := K) (n := start - 1) (by omega)
    rw [congrArg Page.text hp, Text.pieces_append hlead, Text.pieces_lead, Text.pieces_rest]
  · intro hn
    have hp := Page.deleted_of_lacks (p := ⟨K, b.cursor, b.mode⟩) hd h.inRange hb hn
    exact ⟨congrArg Page.text hp, h'.cursor.trans (congrArg Page.cursor hp)⟩

/-- A range from last to first names its first line and the next one. The largest of all lines is
not there, and no sum with it leaves the words. -/
theorem delete_interior_exact_inverted :
    let t : Text := "a\nb\nc\n\x7d\n".toList
    let b : Buffer MemoryStore := ⟨⟨t⟩, LineIndex.scan t, 3, .insert⟩
    (∃ b' u, Statement.run [] ⟨.delete, some (.range 2 1), none⟩ b = .ok .done b' ∧
        Consistent MemoryStore.Holds b' u ∧ b'.cursor = 2 ∧
        u.pieces = ["a\n".toList, "\x7d\n".toList]) ∧
      ∃ b', Statement.run [] ⟨.delete, some (.line (wordLimit - 1)), none⟩ b = .ok .done b' ∧
        Consistent MemoryStore.Holds b' t ∧ b'.cursor = 3 ∧
        RemovesWithin (wordLimit - 1) 1 t.pieces := by
  intro t b
  have h : Consistent MemoryStore.Holds b t := ⟨rfl, rfl, by decide, by decide⟩
  have del {start size : Nat} (arg : Option LineArg)
      (hd : Statement.deletion 3 arg = (start, size)) :=
    delete_interior_exact MemoryStore.reliable h (by decide) (by decide) [] arg none hd
  constructor
  · obtain ⟨b', u, hr, hc, -, hin, -⟩ := del (some (.range 2 1)) rfl
    obtain ⟨hu, hcur⟩ := hin (by decide) (by decide)
    exact ⟨b', u, hr, hc, hcur, hu⟩
  · obtain ⟨b', _, hr, hc, -, -, hout, hw⟩ := del (some (.line (wordLimit - 1))) rfl
    obtain ⟨rfl, hcur⟩ := hout (.inr (by decide))
    refine ⟨b', hr, hc, hcur, hw (by decide) fun a ha => ?_⟩
    obtain rfl := Option.some.inj ha
    exact Nat.sub_lt (by decide) (by decide)

end Buffer
end LineRepl
