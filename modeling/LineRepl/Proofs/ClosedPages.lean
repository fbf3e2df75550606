import LineRepl.Proofs.Page

/-! Pages whose text ends in the closing line. The last brace of such a text is the one of that
line, whatever braces stand before it, so closing the text again changes nothing, and the closing
line stays at the end of all that is written before it. -/
namespace LineRepl

open Buffer (closingBrace closingLine)

/-- The text ends in the closing line. -/
def Text.Closed (t : Text) : Prop := ∃ x : Text, t = x ++ closingLine

namespace Text

theorem Closed.complete {t : Text} (h : Closed t) : Complete t := by
  obtain ⟨x, rfl⟩ := h
  exact (complete_append_of_ne_nil x (by decide)).mpr (by decide)

theorem Closed.feeds_pos {t : Text} (h : Closed t) : 0 < feeds t := by
  obtain ⟨x, rfl⟩ := h
  rw [feeds_append]
  exact Nat.lt_of_lt_of_le (by decide) (Nat.le_add_left (feeds closingLine) _)

theorem Closed.length_pieces {t : Text} (h : Closed t) : (pieces t).length = feeds t :=
  length_pieces_of_complete h.complete

/-- A closing line is not cut apart where a line begins. -/
theorem Closed.of_append {a b : Text} (h : Closed (a ++ b)) (ha : Complete a) (hb : b ≠ []) :
    Closed b := by
  obtain ⟨x, hx⟩ := h
  rcases List.append_eq_append_iff.mp hx with ⟨c, rfl, hc⟩ | ⟨c, hc, hb'⟩
  · exact ⟨c, hc⟩
  · -- the closing line begins in `a`, so that `a` ends in a brace or `b` is empty
    subst hc
    rcases c with _ | ⟨d, _ | ⟨e, c⟩⟩
    · exact ⟨[], hb'.symm⟩
    · obtain ⟨rfl, -⟩ := List.cons.inj hb'
      have := ha closingBrace (by simp)
      exact absurd this (by decide)
    · have hl := congrArg List.length hb'
      have hpos := List.length_pos_iff.mpr hb
      simp only [closingLine, List.length_cons, List.length_append, List.length_nil] at hl
      omega

theorem Closed.rest {n : Nat} {t : Text} (h : Closed t) (hn : n < feeds t) : Closed (rest n t) := by
  refine Closed.of_append ?_ (complete_lead (Nat.le_of_lt hn)) (rest_ne_nil (h.length_pieces ▸ hn))
  rwa [lead_append_rest]

theorem Closed.mem_lastPiece {t : Text} (h : Closed t) : closingBrace ∈ lastPiece t := by
  have hne : t ≠ [] := by
    obtain ⟨x, rfl⟩ := h
    simp [closingLine]
  have hinit : Complete (pieces t).dropLast.flatten := by
    rw [List.dropLast_eq_take]
    have hlen := List.length_pos_iff.mpr (pieces_ne_nil hne)
    exact complete_flatten (complete_of_mem_take (by omega))
  obtain ⟨x, hx⟩ := Closed.of_append (by rwa [dropLast_append_lastPiece]) hinit (lastPiece_ne_nil hne)
  rw [hx]
  simp [closingLine]

/-- Cutting a closed text at its last brace takes its closing line only. -/
theorem cutBefore_closed {x : Text} (hx : x ≠ []) : cutBefore closingBrace (x ++ closingLine) = x :=
  cutBefore_append hx (by decide)

/-- A text without a line feed is one stored line once it has its own. -/
theorem pieces_append_feed {t : Text} (h : '\n' ∉ t) : pieces (t ++ ['\n']) = [t ++ ['\n']] := by
  induction t with
  | nil => rfl
  | cons c t ih =>
    obtain ⟨hc, ht⟩ := not_or.mp (mt List.mem_cons.mpr h)
    exact pieces_cons_of_ne (Ne.symm hc) (ih ht)

end Text

namespace Page

variable {p : Page}

/-- The cursor of a closed page is on a stored line. -/
theorem InRange.cursor_le_feeds (h : p.InRange) (hc : p.text.Closed) : p.cursor ≤ p.text.feeds := by
  have hp := hc.feeds_pos
  have hl := h.le
  rw [lineCount] at hl
  omega

/-- Closing a page leaves its cursor where it is as long as there is a line for it. -/
theorem resealed_eq (h1 : 1 ≤ p.cursor)
    (hc : p.cursor < (p.text.cutBefore closingBrace).feeds + 2) :
    p.resealed = { p with text := p.text.cutBefore closingBrace ++ closingLine } := by
  have hcount : (((p.erased closingBrace).settle.appended closingLine).settle).lineCount =
      (p.text.cutBefore closingBrace).feeds + 2 := by
    rw [settle_lineCount, lineCount, appended_text, settle_text, erased_text, Text.feeds_append]
    rfl
  rw [resealed, setCursor, if_pos ⟨h1, hcount ▸ hc⟩]
  rfl

/-- A closed page with more than its closing line is closed for good. -/
theorem resealed_of_closed {x : Text} (ht : p.text = x ++ closingLine) (hx : x ≠ [])
    (h1 : 1 ≤ p.cursor) (hc : p.cursor < p.lineCount) : p.resealed = p := by
  have hcut : p.text.cutBefore closingBrace = x := by rw [ht, Text.cutBefore_closed hx]
  have hcount : p.lineCount = x.feeds + 2 := by
    rw [lineCount, ht, Text.feeds_append]
    rfl
  rw [resealed_eq h1 (by rw [hcut, ← hcount]; exact hc), hcut, ← ht]

/-! ## Commits -/

/-- What a commit makes of a page: a text with its line feed, written and closed. -/
def entered (text : Text) (p : Page) : Page := (p.written (text ++ ['\n'])).settle.resealed

theorem written_insert_text (t : Text) (hm : p.mode = .insert) :
    (p.written t).text = p.text.lead (p.cursor - 1) ++ t ++ p.text.rest (p.cursor - 1) := by
  simp only [written, hm, Buffer.splice, List.flatten_append, Text.flatten_pieces]
  rfl

/-- In replace mode as many stored lines go as the text has itself. -/
theorem written_over_text (t : Text) (hm : p.mode = .replace) :
    (p.written t).text =
      p.text.lead (p.cursor - 1) ++ t ++ p.text.rest (p.cursor - 1 + t.pieces.length) := by
  simp only [written, hm, Buffer.splice, List.flatten_append, Text.flatten_pieces]
  rfl

theorem written_replace_text {t : Text} (ht : '\n' ∉ t) (hm : p.mode = .replace)
    (hp : 1 ≤ p.cursor) :
    (p.written (t ++ ['\n'])).text =
      p.text.lead (p.cursor - 1) ++ (t ++ ['\n']) ++ p.text.rest p.cursor := by
  rw [written_over_text _ hm, Text.pieces_append_feed ht, List.length_singleton,
    Nat.sub_add_cancel hp]

theorem written_cursor {t : Text} (h : p.cursor - 1 < p.text.pieces.length) :
    (p.written t).cursor = p.cursor + 1 := if_pos h

/-- A commit that leaves a closed text with more than its closing line moves the cursor down one
line and is done. -/
theorem entered_eq {t x : Text} (hcur : p.cursor - 1 < p.text.pieces.length)
    (hw : (p.written (t ++ ['\n'])).text = x ++ closingLine) (hx : x ≠ [])
    (hf : p.cursor ≤ x.feeds) :
    p.entered t = ⟨x ++ closingLine, p.cursor + 1, .insert⟩ := by
  have hcount : (p.written (t ++ ['\n'])).lineCount = x.feeds + 2 := by
    rw [lineCount, hw, Text.feeds_append]
    rfl
  have hin : (p.written (t ++ ['\n'])).InRange := by
    refine ⟨?_, ?_⟩ <;> rw [written_cursor hcur]
    · omega
    · rw [hcount]
      omega
  rw [entered, hin.settle_eq, resealed_of_closed hw hx hin.pos, ← hw, ← written_cursor hcur]
  · rfl
  · rw [written_cursor hcur, hcount]
    omega

/-- A line laid in at the cursor ends what stands before the new cursor. -/
theorem cursor_le_feeds_splice (h1 : 1 ≤ p.cursor) (hle : p.cursor ≤ p.text.feeds) (t y : Text) :
    p.cursor ≤ (p.text.lead (p.cursor - 1) ++ (t ++ ['\n']) ++ y).feeds := by
  have hfeed : Text.feeds ['\n'] = 1 := rfl
  rw [Text.feeds_append, Text.feeds_append, Text.feeds_append, Text.feeds_lead (by omega)]
  omega

/-- Inserting into a closed page splices the line in before the cursor line. -/
theorem entered_insert (hp : p.InRange) (hc : p.text.Closed) (hm : p.mode = .insert) (t : Text) :
    p.entered t = ⟨p.text.lead (p.cursor - 1) ++ (t ++ ['\n']) ++ p.text.rest (p.cursor - 1),
      p.cursor + 1, .insert⟩ := by
  have hle := hp.cursor_le_feeds hc
  have hpos := hp.pos
  obtain ⟨y, hy⟩ := hc.rest (n := p.cursor - 1) (by omega)
  have hw := written_insert_text (t ++ ['\n']) hm
  rw [hy, ← List.append_assoc] at hw
  have hf := cursor_le_feeds_splice hpos hle t y
  rw [entered_eq (by rw [hc.length_pieces]; omega) hw (by simp) hf, hy, List.append_assoc]

/-- Replacing a line of a closed page that is not its last one puts the new line in its place. -/
theorem entered_replace (hp : p.InRange) (hc : p.text.Closed) (hm : p.mode = .replace) {t : Text}
    (ht : '\n' ∉ t) (hlt : p.cursor < p.text.feeds) :
    p.entered t = ⟨p.text.lead (p.cursor - 1) ++ (t ++ ['\n']) ++ p.text.rest p.cursor,
      p.cursor + 1, .insert⟩ := by
  have hpos := hp.pos
  obtain ⟨y, hy⟩ := hc.rest hlt
  have hw := written_replace_text ht hm hpos
  rw [hy, ← List.append_assoc] at hw
  have hf := cursor_le_feeds_splice hpos (Nat.le_of_lt hlt) t y
  rw [entered_eq (by rw [hc.length_pieces]; omega) hw (by simp) hf, hy, List.append_assoc]

end Page
end LineRepl
