import LineRepl.Proofs.Commits

/-! What becomes of a program whose closing line is deleted or overwritten. Closing it again cuts at
the last brace that is left, which then is the one of another block. So the closing line is put back
without loss exactly if no such brace is left, but for one that begins the text. -/
namespace LineRepl

open Attempt Buffer

namespace Text

/-- The last stored line is the closing line. -/
def EndsClosed (t : Text) : Prop := lastPiece t = closingLine

theorem EndsClosed.closed {t : Text} (h : EndsClosed t) : Closed t :=
  ⟨_, by rw [← h, dropLast_append_lastPiece]⟩

/-- What is made of the lines that are kept: they have a brace in their last line, or they are
closed. -/
def closedAgain (kept : Text) : Text :=
  if closingBrace ∈ lastPiece kept then kept else cutBefore closingBrace kept ++ closingLine

theorem cut_and_closed_iff {x : Text} :
    cutBefore closingBrace x ++ closingLine = x ++ closingLine ↔ closingBrace ∉ x.tail := by
  rw [List.append_left_inj, cutBefore_eq_self]

theorem not_mem_tail_append {c : Char} {a b : Text} (h : c ∉ b) : c ∉ (a ++ b).tail ↔ c ∉ a.tail := by
  cases a with
  | nil => simp [mt List.mem_of_mem_tail h]
  | cons d a => simp [h]

/-- The kept lines stay as they are exactly if there is no brace to cut at, or no need to cut. -/
theorem closedAgain_iff {kept : Text} :
    closedAgain kept = kept ++ (if closingBrace ∈ lastPiece kept then [] else closingLine) ↔
      closingBrace ∈ lastPiece kept ∨ closingBrace ∉ kept.tail := by
  unfold closedAgain
  split
  · rename_i h
    simp [h]
  · rename_i h
    rw [cut_and_closed_iff]
    simp [h]

end Text

namespace Page

variable {p : Page} {arg : Option LineArg} {start size : Nat}

theorem deleted_text_of_last (hd : Statement.deletion p.cursor arg = (start, size))
    (hs : 1 ≤ start) (hl : p.text.pieces.length ≤ start + size) :
    (p.deleted arg).text = (p.text.lead (start - 1)).closedAgain := by
  have ht : (p.shortened arg).text = p.text.lead (start - 1) := by
    rw [shortened_text, hd, without_of_pos hs]
    simp only [Text.rest_of_length_le hl, List.append_nil]
  unfold deleted Text.closedAgain
  simp only [ht, List.contains_iff_mem]
  split
  · exact ht
  · rw [resealed_text, ht]

/-- The new line stands in place of the closing line when the text is closed. -/
theorem entered_text_of_last (hm : p.mode = .replace) (hp : 1 ≤ p.cursor)
    (hl : p.cursor = p.text.pieces.length) {t : Text} (ht : '\n' ∉ t) :
    (p.entered t).text =
      (p.text.lead (p.cursor - 1) ++ (t ++ ['\n'])).cutBefore closingBrace ++ closingLine := by
  rw [entered, resealed_text, settle_text, written_replace_text ht hm hp,
    Text.rest_of_length_le (Nat.le_of_eq hl.symm), List.append_nil]

end Page

namespace Session

variable {ω : Type} [Workshop ω] {holds : ω → Text → Prop} {s : Session ω} {K : Text}

theorem delete_of_last (k : Reliable holds) (h : Consistent holds s.buffer K) (skeleton : Text)
    {arg : Option LineArg} (body : Option Text) {start size : Nat}
    (hd : Statement.deletion s.buffer.cursor arg = (start, size)) (hs : 1 ≤ start)
    (hl : K.pieces.length ≤ start + size) :
    ∃ b', Statement.run skeleton ⟨.delete, arg, body⟩ s.buffer = .ok .done b' ∧
      Consistent holds b' (K.lead (start - 1)).closedAgain := by
  obtain ⟨a, b', hr, rfl, h'⟩ := (run_ends k h.shows h.inRange skeleton
    ⟨.delete, arg, body⟩).exists_ok fun _ _ ⟨_, hf⟩ => hf
  have hc := h'.consistent (h.inRange.applied skeleton ⟨.delete, arg, body⟩)
  have ht := Page.deleted_text_of_last (p := ⟨K, s.buffer.cursor, s.buffer.mode⟩) hd hs hl
  exact ⟨b', hr, ht ▸ hc⟩

theorem replace_of_last (k : Reliable holds) (h : Consistent holds s.buffer K)
    (hK : K.EndsClosed) (skeleton : Text) {t : Text} (ht : '\n' ∉ t) :
    ∃ b₁ b₂, Statement.run skeleton ⟨.replace, some (.line K.pieces.length), some t⟩ s.buffer =
        .ok (.commit t) b₁ ∧
      enter t b₁ = .ok () b₂ ∧
      Consistent holds b₂
        ((K.lead (K.pieces.length - 1) ++ (t ++ ['\n'])).cutBefore closingBrace ++ closingLine) := by
  have hlen := hK.closed.length_pieces
  have hpos : 1 ≤ K.pieces.length := by
    rw [hlen]
    exact hK.closed.feeds_pos
  have haim : Page.setCursor K.pieces.length ⟨K, s.buffer.cursor, s.buffer.mode⟩ =
      ⟨K, K.pieces.length, s.buffer.mode⟩ := by
    have hlt : K.pieces.length < K.feeds + 1 := by omega
    exact if_pos ⟨hpos, hlt⟩
  have h₁ : Shows holds ((s.buffer.setCursor K.pieces.length).setMode .replace)
      ⟨K, K.pieces.length, .replace⟩ := by
    have := (h.shows.setCursor K.pieces.length).setMode .replace
    rwa [haim] at this
  obtain ⟨b₂, hr, h₂⟩ := enter_shows k h₁.toReads t
  have hc := h₂.consistent (Page.resealed_inRange _)
  rw [Page.entered_text_of_last rfl hpos rfl ht] at hc
  exact ⟨_, b₂, rfl, hr, hc⟩

/-- **What putting the closing line back makes of the lines that are kept**, after `del` has removed
the closing line and after `rep` has overwritten it. They stay, with the closing line behind them,
exactly if their last line has a brace, or if none but their first character is one; after `rep`
only the latter helps. -/
theorem closing_line_put_back (k : Reliable holds) (h : Consistent holds s.buffer K)
    (hK : K.EndsClosed) (skeleton : Text) :
    (∀ arg body start size, Statement.deletion s.buffer.cursor arg = (start, size) → 1 ≤ start →
      K.pieces.length ≤ start + size →
      ∃ b' kept u, Statement.run skeleton ⟨.delete, arg, body⟩ s.buffer = .ok .done b' ∧
        kept = K.lead (start - 1) ∧ Consistent holds b' u ∧ u = kept.closedAgain ∧
        (u = kept ++ (if closingBrace ∈ kept.lastPiece then [] else closingLine) ↔
          closingBrace ∈ kept.lastPiece ∨ closingBrace ∉ kept.tail)) ∧
    (∀ t : Text, '\n' ∉ t → closingBrace ∉ t →
      ∃ b₁ b₂ kept u, Statement.run skeleton ⟨.replace, some (.line K.pieces.length), some t⟩
          s.buffer = .ok (.commit t) b₁ ∧
        enter t b₁ = .ok () b₂ ∧
        commit t { s with buffer := b₁ } = build { s with buffer := b₂ } ∧
        kept = K.lead (K.pieces.length - 1) ∧ Consistent holds b₂ u ∧
        u = (kept ++ (t ++ ['\n'])).cutBefore closingBrace ++ closingLine ∧
        (u = kept ++ (t ++ ['\n']) ++ closingLine ↔ closingBrace ∉ kept.tail)) := by
  constructor
  · intro arg body start size hd hs hl
    obtain ⟨b', hr, hc⟩ := delete_of_last k h skeleton body hd hs hl
    exact ⟨b', _, _, hr, rfl, hc, rfl, Text.closedAgain_iff⟩
  · intro t ht hbrace
    obtain ⟨b₁, b₂, hr, he, hc⟩ := replace_of_last k h hK skeleton ht
    have hnew : closingBrace ∉ t ++ ['\n'] := fun hm =>
      (List.mem_append.mp hm).elim hbrace (by decide)
    exact ⟨b₁, b₂, _, _, hr, he, commit_of_enter he, rfl, hc, rfl,
      Text.cut_and_closed_iff.trans (Text.not_mem_tail_append hnew)⟩

/-- Behind a block of its own, `del` and `rep` take a line that they were not given, `rep` its own
line too, and the end of that block. -/
theorem closing_line_put_back_behind_block :
    (∃ b', Statement.run [] ⟨.delete, some (.line 3), none⟩
        (rehearsed "f()\x7b\x7d\nint x;\n\x7d\n".toList 1 .insert).buffer = .ok .done b' ∧
      Consistent Rehearsal.Holds b' "f()\x7b\x7d\n".toList) ∧
    ∃ b₁ b₂, Statement.run [] ⟨.replace, some (.line 3), some "y;".toList⟩
        (rehearsed "f()\x7b\x7d\nint x;\n\x7d\n".toList 1 .insert).buffer =
        .ok (.commit "y;".toList) b₁ ∧
      enter "y;".toList b₁ = .ok () b₂ ∧ Consistent Rehearsal.Holds b₂ "f()\x7b\x7d\n".toList := by
  have h : Consistent Rehearsal.Holds
      (rehearsed "f()\x7b\x7d\nint x;\n\x7d\n".toList 1 .insert).buffer
      "f()\x7b\x7d\nint x;\n\x7d\n".toList := ⟨⟨rfl, rfl⟩, rfl, by decide, by decide⟩
  obtain ⟨hdel, hrep⟩ := closing_line_put_back Rehearsal.reliable h rfl []
  constructor
  · obtain ⟨b', _, _, hr, rfl, hc, rfl, -⟩ :=
      hdel (some (.line 3)) none 3 1 rfl (by decide) (by decide)
    exact ⟨b', hr, hc⟩
  · obtain ⟨b₁, b₂, _, _, hr, he, -, rfl, hc, rfl, -⟩ := hrep "y;".toList (by decide) (by decide)
    exact ⟨b₁, b₂, hr, he, hc⟩

/-- The same over a text in memory, from the line that is typed. What is kept is the first two lines,
and the second has no brace. -/
theorem closing_line_not_put_back :
    ∃ b', runLine [] "$del 3".toList
        (Buffer.mk ⟨"f()\x7b\x7d\nint x;\n\x7d\n".toList⟩
          (LineIndex.scan "f()\x7b\x7d\nint x;\n\x7d\n".toList) 1 .insert) = .ok .done b' ∧
      closingBrace ∉ (Text.lead 2 "f()\x7b\x7d\nint x;\n\x7d\n".toList).lastPiece ∧
      MemoryStore.text b'.store ≠ Text.lead 2 "f()\x7b\x7d\nint x;\n\x7d\n".toList ++ closingLine :=
  ⟨⟨⟨"f()\x7b\x7d\n".toList⟩, LineIndex.scan "f()\x7b\x7d\n".toList, 1, .insert⟩, by rfl,
    by decide, by decide⟩

end Session
end LineRepl
