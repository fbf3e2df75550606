import LineRepl.Proofs.ClosedPages
import LineRepl.Proofs.BufferPages

/-! Writing is splicing. A write cuts the text where the cursor line begins and lays its own text in,
in replace mode over as many stored lines as it has itself. The cursor of a consistent buffer is on a
stored line as long as there is one, so that a write comes past the end of the text only when
nothing is stored at all. Removing as many lines at the same place as were inserted there takes the
splice back. -/
namespace LineRepl

namespace Text

/-- The text of some lines, each ended by a line feed. -/
def ofLines (lines : List Text) : Text := lines.flatMap (· ++ ['\n'])

theorem complete_ofLines (lines : List Text) : Complete (ofLines lines) := by
  induction lines with
  | nil => exact complete_nil
  | cons l lines ih => exact (complete_append_feed l).append ih

theorem pieces_ofLines {lines : List Text} (h : ∀ l ∈ lines, '\n' ∉ l) :
    pieces (ofLines lines) = lines.map (· ++ ['\n']) := by
  induction lines with
  | nil => rfl
  | cons l lines ih =>
    have ih := ih fun m hm => h m (List.mem_cons_of_mem l hm)
    show pieces ((l ++ ['\n']) ++ ofLines lines) = _
    rw [pieces_append (complete_append_feed l), pieces_append_feed (h l List.mem_cons_self), ih]
    rfl

end Text

namespace Page

variable {p : Page}

theorem InRange.cursor_pred_le_feeds (h : p.InRange) : p.cursor - 1 ≤ p.text.feeds := by
  have hl := h.le
  rw [lineCount] at hl
  omega

theorem InRange.cursor_stored_iff (h : p.InRange) :
    p.cursor - 1 < p.text.pieces.length ↔ p.text ≠ [] := by
  have hl := h.le
  have hf := Text.feeds_le_length_pieces p.text
  rw [lineCount] at hl
  constructor
  · rintro hlt ht
    rw [ht] at hlt
    exact absurd hlt (Nat.not_lt_zero _)
  · intro ht
    have := List.length_pos_iff.mpr (Text.pieces_ne_nil ht)
    omega

/-- What is written into nothing is all there is, in either mode. -/
theorem written_of_nil (ht : p.text = []) (t : Text) :
    p.written t = ⟨t, t.pieces.length, .insert⟩ := by
  have hs : Buffer.splice p.mode (p.cursor - 1) p.text.pieces t.pieces = t.pieces := by
    rw [ht]
    cases p.mode <;> simp [Buffer.splice, Text.pieces]
  have hp : ¬ p.cursor - 1 < p.text.pieces.length := by
    rw [ht]
    exact Nat.not_lt_zero _
  simp only [written, hs, if_neg hp, Text.flatten_pieces]

theorem written_settle_cursor (h : p.InRange) (t : Text) :
    (p.written t).settle.cursor =
      if p.text = [] then max 1 t.feeds
      else max 1 (min (p.cursor + 1) ((p.written t).settle.lineCount - 1)) := by
  split
  · rename_i ht
    have hf := Text.feeds_le_length_pieces t
    rw [written_of_nil ht]
    show max 1 (min t.pieces.length (t.feeds + 1 - 1)) = _
    omega
  · rename_i ht
    show max 1 (min (p.written t).cursor _) = _
    rw [written_cursor (h.cursor_stored_iff.mpr ht)]
    rfl

/-- Removing the lines that were just inserted takes them out again and no others. The cursor stays
one line further down if there is one. -/
theorem InRange.without_written (hp : p.InRange) (hm : p.mode = .insert) {t : Text} (ht : t.Complete)
    (hne : t ≠ []) :
    ((p.written t).settle.without p.cursor (t.pieces.length - 1)).settle =
      ⟨p.text, Buffer.clamp p.lineCount (p.cursor + 1), .insert⟩ := by
  have hpos := hp.pos
  have hle := hp.cursor_pred_le_feeds
  have hlen := List.length_pos_iff.mpr (Text.pieces_ne_nil hne)
  have hlead := Text.complete_lead hle
  have hcut : (p.text.lead (p.cursor - 1)).pieces.length = p.cursor - 1 := by
    rw [Text.length_pieces_of_complete hlead, Text.feeds_lead hle]
  have hnew : (p.text.lead (p.cursor - 1) ++ t).pieces.length =
      p.cursor + (t.pieces.length - 1) := by
    rw [Text.pieces_append hlead, List.length_append, hcut]
    omega
  have htext : (p.written t).text.lead (p.cursor - 1) ++
      (p.written t).text.rest (p.cursor + (t.pieces.length - 1)) = p.text := by
    have h₁ := Text.lead_append hlead (t ++ p.text.rest (p.cursor - 1))
    have h₂ := Text.rest_append (hlead.append ht) (p.text.rest (p.cursor - 1))
    rw [hcut, ← List.append_assoc] at h₁
    rw [hnew] at h₂
    rw [written_insert_text t hm, h₁, h₂, Text.lead_append_rest]
  have hcount : (p.written t).settle.lineCount = p.text.feeds + t.feeds + 1 := by
    have hf := congrArg Text.feeds (Text.lead_append_rest (p.cursor - 1) p.text)
    rw [Text.feeds_append] at hf
    rw [settle_lineCount, lineCount, written_insert_text t hm, Text.feeds_append, Text.feeds_append]
    omega
  have hcur := written_settle_cursor hp t
  rw [hcount] at hcur
  rw [without_of_pos hpos, settle_text, htext]
  refine congrArg (Page.mk p.text · .insert) ?_
  show Buffer.clamp p.lineCount (p.written t).settle.cursor = _
  rw [hcur]
  simp only [Buffer.clamp, lineCount]
  split
  · rename_i hnil
    simp [hnil]
  · omega

end Page

namespace Buffer

variable {σ : Type} {holds : σ → Text → Prop} {b b' : Buffer σ} {K : Text}

/-- `b'` is `b` with a text written into the text `K` where the cursor line begins. -/
structure Spliced (holds : σ → Text → Prop) (b : Buffer σ) (K t : Text) (b' : Buffer σ) :
    Prop where
  text : ∃ offset front back, b.index.offset? b.cursor = some offset ∧
    K.cutAt offset = some (front, back) ∧
    Consistent holds b' (front ++ t ++ match b.mode with
      | .insert => back
      | .replace => (K.pieces.drop (b.cursor - 1 + t.pieces.length)).flatten)
  cursor : b'.cursor =
    if K = [] then max 1 t.feeds else max 1 (min (b.cursor + 1) (b'.lineCount - 1))
  mode : b'.mode = .insert

/-- A consistent buffer has an offset for its cursor line, and the text can be cut there. -/
theorem Consistent.cut_at_cursor (h : Consistent holds b K) :
    b.index.offset? b.cursor = some (K.lead (b.cursor - 1)).byteSize ∧
      K.cutAt (K.lead (b.cursor - 1)).byteSize =
        some (K.lead (b.cursor - 1), K.rest (b.cursor - 1)) := by
  have hoff := LineIndex.offset?_scan (t := K) h.inRange.cursor_pred_le_feeds
  rw [Nat.sub_add_cancel h.cursor_pos, ← h.index] at hoff
  have hcut := Text.cutAt_append (K.lead (b.cursor - 1)) (K.rest (b.cursor - 1))
  rw [Text.lead_append_rest] at hcut
  exact ⟨hoff, hcut⟩

theorem Consistent.spliced (h : Consistent holds b K) {t : Text}
    (h' : Shows holds b' (Page.written t ⟨K, b.cursor, b.mode⟩).settle) :
    Spliced holds b K t b' := by
  have hc := h'.consistent (Page.settle_inRange _)
  obtain ⟨hoff, hcut⟩ := h.cut_at_cursor
  refine ⟨⟨_, _, _, hoff, hcut, ?_⟩, ?_, h'.mode⟩
  · split
    · rename_i hm
      rwa [Page.settle_text, Page.written_insert_text (p := ⟨K, b.cursor, b.mode⟩) t hm] at hc
    · rename_i hm
      rwa [Page.settle_text, Page.written_over_text (p := ⟨K, b.cursor, b.mode⟩) t hm] at hc
  · rw [h'.cursor, h'.lineCount]
    exact Page.written_settle_cursor h.inRange t

variable [TextStore σ]

/-- **Writing is splicing**, in either mode and whatever the text, with line feeds or without. The
cursor moves down one line, if there is one, and the next write inserts. Past the end is written only
into a store without any text. -/
theorem write_splices (k : Reliable holds) (h : Consistent holds b K) (t : Text) :
    (∃ b', write t b = .ok () b' ∧ Spliced holds b K t b') ∧
      (¬ b.cursor - 1 < K.pieces.length ↔ K = []) := by
  constructor
  · obtain ⟨_, b', hr, -, h'⟩ :=
      (write_drafts k t h.shows.toReads).exists_ok fun _ _ he => he.cause.elim id id
    exact ⟨b', hr, h.spliced h'⟩
  · rw [h.inRange.cursor_stored_iff, Decidable.not_not]

/-- Two lines, the second without a line feed, over the last two of three lines, of which the last
has none either. -/
theorem write_splices_unterminated :
    ∃ b', write "y\nz".toList
        ⟨MemoryStore.mk "é\nb\nc".toList, LineIndex.scan "é\nb\nc".toList, 2, .replace⟩ =
        .ok () b' ∧
      Consistent MemoryStore.Holds b' "é\ny\nz".toList ∧ b'.cursor = 2 ∧ b'.mode = .insert := by
  have h : Consistent MemoryStore.Holds
      ⟨MemoryStore.mk "é\nb\nc".toList, LineIndex.scan "é\nb\nc".toList, 2, .replace⟩
      "é\nb\nc".toList := ⟨rfl, rfl, by decide, by decide⟩
  obtain ⟨⟨b', hr, hs⟩, -⟩ := write_splices MemoryStore.reliable h "y\nz".toList
  obtain ⟨offset, front, back, ho, hcut, hc⟩ := hs.text
  obtain rfl : 3 = offset := Option.some.inj ho
  obtain ⟨rfl, rfl⟩ := Prod.mk.inj (Option.some.inj hcut)
  refine ⟨b', hr, hc, ?_, hs.mode⟩
  rw [hs.cursor, hc.lineCount]
  rfl

/-- **Removing what was just inserted is as if nothing had been written**, wherever the lines went,
also into a text whose last line has no line feed, and into none. Only the cursor has moved down one
line, if there is one. -/
theorem insertion_taken_back (k : Reliable holds) (h : Consistent holds b K) (hm : b.mode = .insert)
    {lines : List Text} (hne : lines ≠ []) (hl : ∀ l ∈ lines, '\n' ∉ l) :
    ∃ b₁ b₂, write (Text.ofLines lines) b = .ok () b₁ ∧
      deleteLines b.cursor (lines.length - 1) b₁ = .ok () b₂ ∧ Consistent holds b₂ K ∧
      b₂.cursor = clamp b.lineCount (b.cursor + 1) ∧ b₂.mode = .insert := by
  have hlen : (Text.ofLines lines).pieces.length = lines.length := by
    rw [Text.pieces_ofLines hl, List.length_map]
  have hnil : Text.ofLines lines ≠ [] := by
    intro he
    rw [he] at hlen
    exact hne (List.length_eq_zero_iff.mp hlen.symm)
  obtain ⟨b₁, hw, h₁⟩ := (write_drafts k (Text.ofLines lines)).exists_ok h.shows.toReads
  obtain ⟨b₂, hd, h₂⟩ :=
    (deleteLines_drafts k h.cursor_pos (lines.length - 1)).exists_ok h₁.toReads
  have hp := h.inRange.without_written hm (Text.complete_ofLines lines) hnil
  rw [← hlen] at h₂
  have hc := h₂.consistent (Page.settle_inRange _)
  rw [hp] at h₂ hc
  refine ⟨b₁, b₂, hw, hd, hc, h₂.cursor.trans ?_, h₂.mode⟩
  rw [h.lineCount]
  rfl

/-- Two lines before the last one, which has no line feed, and two into an empty store. -/
theorem insertion_taken_back_unterminated :
    (∃ b₁ b₂, write "x\n\n".toList
        ⟨MemoryStore.mk "é\nb".toList, LineIndex.scan "é\nb".toList, 1, .insert⟩ = .ok () b₁ ∧
      deleteLines 1 1 b₁ = .ok () b₂ ∧ Consistent MemoryStore.Holds b₂ "é\nb".toList) ∧
    ∃ b₁ b₂, write "x\n\n".toList ⟨MemoryStore.mk [], LineIndex.scan [], 1, .insert⟩ = .ok () b₁ ∧
      deleteLines 1 1 b₁ = .ok () b₂ ∧ Consistent MemoryStore.Holds b₂ [] := by
  have hl : ∀ l ∈ ["x".toList, []], '\n' ∉ l := by decide
  have back (t : Text) (h : Consistent MemoryStore.Holds ⟨⟨t⟩, LineIndex.scan t, 1, .insert⟩ t) :=
    insertion_taken_back MemoryStore.reliable h rfl (by decide) hl
  constructor
  · obtain ⟨b₁, b₂, hw, hd, hc, -⟩ := back "é\nb".toList ⟨rfl, rfl, by decide, by decide⟩
    exact ⟨b₁, b₂, hw, hd, hc⟩
  · obtain ⟨b₁, b₂, hw, hd, hc, -⟩ := back [] ⟨rfl, rfl, by decide, by decide⟩
    exact ⟨b₁, b₂, hw, hd, hc⟩

end Buffer
end LineRepl
