import LineRepl.Proofs.BufferPages

/-! Runs of a buffer over a reliable store. Each step, whatever its arguments, makes of a buffer that
shows a page in range another such buffer, so the index never tells of a text that is not there and
the cursor never leaves its range. -/
namespace LineRepl.Buffer

open Attempt

/-- The changes of a buffer, with those that a statement makes. -/
inductive Step
  | write (text : Text)
  | append (text : Text)
  | reset (text : Text)
  | rescan
  | setCursor (line : Nat)
  | setMode (mode : WriteMode)
  | deleteLines (start size : Nat)
  | eraseThrough (ch : Char)
  | reseal
  | dispatch (skeleton : Text) (s : Statement)

variable {σ : Type} [TextStore σ]

def Step.run : Step → Action σ Unit
  | write text => Buffer.write text
  | append text => Buffer.append text
  | reset text => Buffer.reset text
  | rescan => Buffer.rescan
  | setCursor line => modify (Buffer.setCursor line)
  | setMode mode => modify (Buffer.setMode mode)
  | deleteLines start size => Buffer.deleteLines start size
  | eraseThrough ch => do let _ ← Buffer.eraseThrough ch
  | reseal => Buffer.reseal
  | dispatch skeleton s => do let _ ← s.run skeleton

/-- Takes steps one after the other, as long as they succeed. -/
def runSteps : List Step → Action σ Unit
  | [] => pure ()
  | s :: rest => do s.run; runSteps rest

/-- What a step makes of a page. -/
def Step.page : Step → Page → Page
  | write text, p => (p.written text).settle
  | append text, p => (p.appended text).settle
  | reset text, p => (p.replaced text).settle
  | rescan, p => p.settle
  | setCursor line, p => p.setCursor line
  | setMode mode, p => { p with mode }
  | deleteLines start size, p => (p.without start size).settle
  | eraseThrough ch, p => (p.erased ch).settle
  | reseal, p => p.resealed
  | dispatch skeleton s, p => p.applied skeleton s

theorem Step.page_inRange {p : Page} (h : p.InRange) (s : Step) : (s.page p).InRange := by
  cases s with
  | setCursor line => exact h.setCursor line
  | setMode mode => exact h.withMode mode
  | reseal => exact Page.resealed_inRange p
  | dispatch skeleton s => exact h.applied skeleton s
  | _ => exact Page.settle_inRange _

variable {fails : Text → Prop} {holds : σ → Text → Prop} {b : Buffer σ} {p : Page}

/-- A step fails only on what it comes past: no text larger than both the one before it and the one
after it. -/
theorem step_ends (k : Keeps fails holds) (h : Shows holds b p) (hp : p.InRange) (s : Step) :
    Ends s.run b (fun _ b' => Shows holds b' (s.page p))
      (fun _ _ => ∃ t, p.Spans (s.page p) t ∧ fails t) := by
  cases s with
  | write text => exact (write_drafts k text).ends h.toReads
  | append text => exact (append_drafts k text).ends h.toReads
  | reset text => exact (reset_drafts k text).ends h.toReads
  | rescan => exact (rescan_drafts k).ends h.toReads
  | setCursor line => exact h.setCursor line
  | setMode mode => exact h.setMode mode
  | deleteLines start size =>
    exact (deleteLines_ends k h hp start size).mono (fun _ _ => And.right) fun _ _ he => he.spans
  | eraseThrough ch =>
    exact ((eraseThrough_drafts k ch).ends h.toReads).bind (fun _ _ h₁ => h₁) fun _ _ => id
  | reseal => exact (reseal_spans k h.toReads).mono (fun _ _ => And.right) fun _ _ => id
  | dispatch skeleton s =>
    exact (run_spans k h hp skeleton s).bind (fun _ _ h₁ => h₁.2) fun _ _ => id

theorem run_shows (k : Reliable holds) (h : Shows holds b p) (hp : p.InRange) (s : Step) :
    ∃ b', s.run b = .ok () b' ∧ Shows holds b' (s.page p) := by
  obtain ⟨_, b', hr, hb⟩ := (step_ends k h hp s).exists_ok fun _ _ ⟨_, _, hf⟩ => hf
  exact ⟨b', hr, hb⟩

/-- A run of steps goes through to its end and keeps page and buffer together. -/
theorem runSteps_shows (k : Reliable holds) (h : Shows holds b p) (hp : p.InRange)
    (steps : List Step) :
    ∃ b', runSteps steps b = .ok () b' ∧ Shows holds b' (steps.foldl (fun p s => s.page p) p) ∧
      (steps.foldl (fun p s => s.page p) p).InRange := by
  induction steps generalizing b p with
  | nil => exact ⟨b, rfl, h, hp⟩
  | cons s rest ih =>
    obtain ⟨b₁, hr₁, h₁⟩ := run_shows k h hp s
    obtain ⟨b₂, hr₂, h₂, hp₂⟩ := ih h₁ (s.page_inRange hp)
    refine ⟨b₂, ?_, h₂, hp₂⟩
    simp only [runSteps, bind_apply, hr₁, hr₂]

/-! ## Buffers to begin with -/

theorem openStore_shows (k : Keeps fails holds) {s : σ} {t : Text} (hs : holds s t)
    (ht : ¬ fails t) : ∃ b, openStore s = .ok b ∧ Shows holds b ⟨t, 1, .insert⟩ := by
  have h : Reads holds (Buffer.mk s {} 1 .insert) ⟨t, 1, .insert⟩ := ⟨hs, rfl, rfl⟩
  obtain ⟨_, b, hr, -, hb⟩ := (rescan_drafts k h).exists_ok fun _ _ he => he.cause.elim ht ht
  have hp : Page.InRange ⟨t, 1, .insert⟩ := ⟨Nat.le_refl 1, Nat.le_max_left 1 _⟩
  rw [id, hp.settle_eq] at hb
  exact ⟨b, by simp only [openStore, hr], hb⟩

/-- The cursor of a new buffer is in range. -/
theorem skeleton_inRange (t : Text) : Page.InRange ⟨t, max 1 (t.feeds + 1 - 2), .insert⟩ := by
  constructor <;> simp only [Page.lineCount] <;> omega

theorem withSkeleton_shows (k : Keeps fails holds) {s : σ} {t : Text} (hs : holds s t)
    (ht : ¬ fails t) (skeleton : Text) (hk : ¬ fails skeleton) :
    ∃ b, withSkeleton s skeleton = .ok b ∧
      Shows holds b ⟨skeleton, max 1 (skeleton.feeds + 1 - 2), .insert⟩ := by
  obtain ⟨b₁, hr₁, h₁⟩ := openStore_shows k hs ht
  obtain ⟨_, b₂, hr₂, -, h₂⟩ :=
    (reset_drafts k skeleton h₁.toReads).exists_ok fun _ _ he => he.cause.elim ht hk
  refine ⟨{ b₂ with cursor := max 1 (b₂.lineCount - 2) }, ?_, ⟨⟨h₂.held, ?_, h₂.mode⟩, h₂.index⟩⟩
  · simp only [withSkeleton, hr₁, hr₂]
  · show max 1 (b₂.lineCount - 2) = _
    rw [h₂.lineCount]
    rfl

theorem opened_shows (k : Reliable holds) {s : σ} {t : Text} (hs : holds s t)
    (hb : openStore s = .ok b ∨ ∃ skeleton, withSkeleton s skeleton = .ok b) :
    ∃ p : Page, Shows holds b p ∧ p.InRange := by
  rcases hb with hb | ⟨skeleton, hb⟩
  · obtain ⟨b₁, hr, h⟩ := openStore_shows k hs id
    rw [hb] at hr
    obtain rfl := Except.ok.inj hr
    exact ⟨_, h, Nat.le_refl 1, Nat.le_max_left 1 _⟩
  · obtain ⟨b₁, hr, h⟩ := withSkeleton_shows k hs id skeleton id
    rw [hb] at hr
    obtain rfl := Except.ok.inj hr
    exact ⟨_, h, skeleton_inRange skeleton⟩

/-- Each line that the text has can be read, and the lines that it has not are empty. -/
theorem Shows.lines_read (k : Reliable holds) (h : Shows holds b p) (n : Nat) :
    (1 ≤ n → n ≤ b.lineCount →
      ∃ f b', (Text.fields '\n' p.text)[n - 1]? = some f ∧ line n b = .ok f b') ∧
    (¬ (1 ≤ n ∧ n ≤ b.lineCount) → ∃ b', line n b = .ok [] b') := by
  have hlen : (Text.fields '\n' p.text).length = b.lineCount :=
    (Text.length_fields p.text).trans h.lineCount.symm
  obtain ⟨f, b', hl, hf, -⟩ := (line_ends k.toEdits h n).exists_ok fun _ _ he => he.1
  refine ⟨fun h1 hn => ⟨f, b', ?_, hl⟩, fun hn => ⟨b', ?_⟩⟩
  · have hlt : n - 1 < (Text.fields '\n' p.text).length := by omega
    rw [if_neg (by omega), List.getElem?_eq_getElem hlt, Option.getD_some] at hf
    rw [List.getElem?_eq_getElem hlt, hf]
  · have hnil : f = [] := by
      rw [hf]
      split
      · rfl
      · rw [List.getElem?_eq_none (by omega), Option.getD_none]
    rw [hl, hnil]

/-- **The index is always that of the text in the store, and the cursor stands where it may.** This
holds of every buffer that was opened over a store that never fails, with a skeleton or without one,
after any steps. So each line reads as what stands between line feeds, and no line is where the text
has none. -/
theorem runSteps_consistent (k : Reliable holds) {s : σ} {t : Text} (hs : holds s t)
    (hb : openStore s = .ok b ∨ ∃ skeleton, withSkeleton s skeleton = .ok b) (steps : List Step) :
    ∃ b' u, runSteps steps b = .ok () b' ∧ holds b'.store u ∧ b'.index = LineIndex.scan u ∧
      b'.lineCount = u.feeds + 1 ∧ 1 ≤ b'.cursor ∧ b'.cursor ≤ max 1 (b'.lineCount - 1) ∧
      ∀ n, (1 ≤ n → n ≤ b'.lineCount →
          ∃ f b'', (Text.fields '\n' u)[n - 1]? = some f ∧ line n b' = .ok f b'') ∧
        (¬ (1 ≤ n ∧ n ≤ b'.lineCount) → ∃ b'', line n b' = .ok [] b'') := by
  obtain ⟨p, h, hp⟩ := opened_shows k hs hb
  obtain ⟨b', hr, h', hp'⟩ := runSteps_shows k h hp steps
  have hc := h'.consistent hp'
  exact ⟨b', _, hr, hc.held, hc.index, hc.lineCount, hc.cursor_pos, hc.cursor_le, h'.lines_read k⟩

/-- Over a text with characters of several bytes and no line feed at its end, which is cut before
such a character. -/
theorem runSteps_consistent_multibyte :
    openStore (MemoryStore.mk "é\x7d\nb".toList) = .ok ⟨⟨"é\x7d\nb".toList⟩, ⟨[4]⟩, 1, .insert⟩ ∧
    ∃ b' u, runSteps [.write "x\ny".toList, .setCursor 2, .reseal, .eraseThrough 'é',
        .append "ü\n\n".toList] ⟨MemoryStore.mk "é\x7d\nb".toList, ⟨[4]⟩, 1, .insert⟩ = .ok () b' ∧
      MemoryStore.Holds b'.store u ∧ b'.index = LineIndex.scan u ∧
      b'.lineCount = u.feeds + 1 ∧ 1 ≤ b'.cursor ∧ b'.cursor ≤ max 1 (b'.lineCount - 1) ∧
      ∀ n, (1 ≤ n → n ≤ b'.lineCount →
          ∃ f b'', (Text.fields '\n' u)[n - 1]? = some f ∧ line n b' = .ok f b'') ∧
        (¬ (1 ≤ n ∧ n ≤ b'.lineCount) → ∃ b'', line n b' = .ok [] b'') :=
  ⟨rfl, runSteps_consistent MemoryStore.reliable rfl (.inl rfl) _⟩

end LineRepl.Buffer
