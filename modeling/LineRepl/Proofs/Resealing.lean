import LineRepl.Proofs.BufferSteps
import LineRepl.Proofs.ClosedPages

/-! Closing a text. What is left of it stands before its last brace, unless that brace begins the
text, and the closing line comes behind it. The line count only falls when more than one line stood
behind the brace, and the cursor stays as long as its line does. A text that has been closed with
something before its closing line is closed for good. -/
namespace LineRepl

open Buffer (closingBrace closingLine)

namespace Text

variable {ch : Char}

/-- What stands before the last `ch` of a text if that is beyond offset 0, and else the whole text. -/
inductive UpToLast (ch : Char) : Text → Text → Prop
  | cut {x y : Text} : 0 < x.byteSize → ch ∉ y → UpToLast ch (x ++ ch :: y) x
  | whole {t : Text} : (∀ x y, t = x ++ ch :: y → ch ∉ y → x.byteSize = 0) → UpToLast ch t t

theorem upToLast_cutBefore (ch : Char) (t : Text) : UpToLast ch t (cutBefore ch t) := by
  obtain ⟨hn, he⟩ | ⟨x, y, hx, hy, rfl, he⟩ := cutBefore_cases ch t
  · rw [he]
    refine .whole fun x y ht _ => ?_
    rcases x with _ | ⟨c, x⟩
    · rfl
    · rw [ht] at hn
      exact absurd (List.mem_append_right x List.mem_cons_self) hn
  · rw [he]
    exact .cut (byteSize_pos hx) hy

/-- Only one text stands before the last brace. -/
theorem UpToLast.eq_cutBefore {t x : Text} (h : UpToLast ch t x) : x = cutBefore ch t := by
  cases h with
  | cut hx hy =>
    refine (cutBefore_append ?_ hy).symm
    rintro rfl
    exact absurd hx (Nat.lt_irrefl 0)
  | whole hw =>
    obtain ⟨-, he⟩ | ⟨x, y, hx, hy, ht, -⟩ := cutBefore_cases ch t
    · exact he.symm
    · exact absurd (hw x y ht hy) (Nat.ne_of_gt (byteSize_pos hx))

end Text

namespace Page

variable {p : Page}

theorem resealed_lineCount (p : Page) :
    p.resealed.lineCount = (p.text.cutBefore closingBrace).feeds + 2 := by
  rw [lineCount, resealed_text, Text.feeds_append]
  rfl

/-- A line that is still there keeps the cursor. -/
theorem resealed_cursor (hp : p.InRange) (hc : p.cursor < p.resealed.lineCount) :
    p.resealed.cursor = p.cursor := by
  rw [resealed_lineCount] at hc
  rw [resealed_eq hp.pos hc]

theorem InRange.cursor_lt_lineCount (h : p.InRange) (hc : p.text.Closed) : p.cursor < p.lineCount :=
  Nat.lt_succ_of_le (h.cursor_le_feeds hc)

/-- Closing a page again changes nothing when something was left of it. -/
theorem resealed_resealed (hx : p.text.cutBefore closingBrace ≠ []) :
    p.resealed.resealed = p.resealed := by
  have hp := resealed_inRange p
  have hc : p.resealed.text.Closed := ⟨_, resealed_text p⟩
  exact resealed_of_closed (resealed_text p) hx hp.pos (hp.cursor_lt_lineCount hc)

end Page

namespace Buffer

variable {σ : Type} {holds : σ → Text → Prop} {b b' : Buffer σ} {p : Page} {K : Text}

/-- Buffers that show the same page differ in their stores at most. -/
theorem Shows.eq_withStore (h : Shows holds b p) (h' : Shows holds b' p) :
    b' = { b with store := b'.store } := by
  obtain ⟨store, index, cursor, mode⟩ := b
  obtain ⟨store', index', cursor', mode'⟩ := b'
  obtain rfl : index' = index := h'.index.trans h.index.symm
  obtain rfl : cursor' = cursor := h'.cursor.trans h.cursor.symm
  obtain rfl : mode' = mode := h'.mode.trans h.mode.symm
  rfl

/-- `b'` is `b`, over a store that has the text `K`. -/
def Unchanged (holds : σ → Text → Prop) (K : Text) (b b' : Buffer σ) : Prop :=
  holds b'.store K ∧ b' = { b with store := b'.store }

variable [TextStore σ]

theorem reseal_shows (k : Reliable holds) (h : Shows holds b p) :
    ∃ b', reseal b = .ok () b' ∧ Shows holds b' p.resealed := by
  obtain ⟨_, b', hr, -, h'⟩ := (reseal_ends k h.toReads).exists_ok fun _ _ ⟨_, _, hf⟩ => hf
  exact ⟨b', hr, h'⟩

/-- **Closing a text is exact, and done at once.** The closing line comes behind what stands before
the last brace, the mode stays, and so does the cursor if its line does. Closing again changes
nothing, unless nothing stood before the brace, and closing a text that ends in the closing line
changes nothing in the first place, unless that line is all there is. -/
theorem reseal_settles (k : Reliable holds) (h : Consistent holds b K) :
    ∃ x b₁, Text.UpToLast closingBrace K x ∧ reseal b = .ok () b₁ ∧
      Consistent holds b₁ (x ++ closingLine) ∧ b₁.mode = b.mode ∧
      (b.cursor < b₁.lineCount → b₁.cursor = b.cursor) ∧
      (x ≠ [] → ∃ b₂, reseal b₁ = .ok () b₂ ∧ Unchanged holds (x ++ closingLine) b₁ b₂) ∧
      (∀ y, K = y ++ closingLine → y ≠ [] → Unchanged holds K b b₁) := by
  have hp := h.inRange
  obtain ⟨b₁, hr, h₁⟩ := reseal_shows k h.shows
  have hc := h₁.consistent (Page.resealed_inRange _)
  rw [Page.resealed_text] at hc
  refine ⟨_, b₁, Text.upToLast_cutBefore closingBrace K, hr, hc,
    h₁.mode.trans (Page.resealed_mode _), ?_, ?_, ?_⟩
  · intro hl
    rw [h₁.lineCount] at hl
    exact h₁.cursor.trans (Page.resealed_cursor hp hl)
  · intro hx
    obtain ⟨b₂, hr₂, h₂⟩ := reseal_shows k h₁
    rw [Page.resealed_resealed hx] at h₂
    exact ⟨b₂, hr₂, Page.resealed_text ⟨K, b.cursor, b.mode⟩ ▸ h₂.held, h₁.eq_withStore h₂⟩
  · intro y hy hne
    have hclosed : K.Closed := ⟨y, hy⟩
    rw [Page.resealed_of_closed hy hne hp.pos (hp.cursor_lt_lineCount hclosed)] at h₁
    exact ⟨h₁.held, h.shows.eq_withStore h₁⟩

/-- Behind the last brace two more lines stood, the cursor on the last of them, and a brace begins
the text that is left. -/
theorem reseal_settles_trailing :
    let K : Text := "\x7dé\n\x7d\na\nb\n".toList
    ∃ b₁, reseal ⟨MemoryStore.mk K, LineIndex.scan K, 4, .replace⟩ = .ok () b₁ ∧
      Consistent MemoryStore.Holds b₁ "\x7dé\n\x7d\n".toList ∧ b₁.mode = .replace ∧
      ∃ b₂, reseal b₁ = .ok () b₂ ∧ b₂ = b₁ := by
  intro K
  have h : Consistent MemoryStore.Holds ⟨⟨K⟩, LineIndex.scan K, 4, .replace⟩ K :=
    ⟨rfl, rfl, by decide, by decide⟩
  obtain ⟨x, b₁, hx, hr, hc, hm, -, hagain, -⟩ := reseal_settles MemoryStore.reliable h
  obtain rfl : x = "\x7dé\n".toList := hx.eq_cutBefore
  obtain ⟨b₂, hr₂, ht, hb⟩ := hagain (by decide)
  have hs : b₂.store = b₁.store := congrArg MemoryStore.mk (ht.trans hc.held.symm)
  rw [hs] at hb
  exact ⟨b₁, hr, hc, hm, b₂, hr₂, hb⟩

end Buffer
end LineRepl
