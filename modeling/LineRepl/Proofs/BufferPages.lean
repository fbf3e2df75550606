import LineRepl.Proofs.Page
import LineRepl.Proofs.StoreLaws

/-! Buffers show pages. Every change of a buffer over a store with its laws lays down the page that
its name says: when it succeeds the buffer shows this page, settled and indexed, and when it fails
the buffer is as it was, or, if only the scan failed, changed and not yet settled. -/
namespace LineRepl.Buffer

open Attempt

variable {σ : Type}

/-- A buffer holds a page, whatever its index says. -/
structure Reads (holds : σ → Text → Prop) (b : Buffer σ) (p : Page) : Prop where
  held : holds b.store p.text
  cursor : b.cursor = p.cursor
  mode : b.mode = p.mode

/-- A buffer holds a page and its index is the one of the page. -/
structure Shows (holds : σ → Text → Prop) (b : Buffer σ) (p : Page) : Prop extends
    Reads holds b p where
  index : b.index = LineIndex.scan p.text

/-- The index is that of the text in the store, and the cursor stands where it may. -/
structure Consistent (holds : σ → Text → Prop) (b : Buffer σ) (t : Text) : Prop where
  held : holds b.store t
  index : b.index = LineIndex.scan t
  cursor_pos : 1 ≤ b.cursor
  cursor_le : b.cursor ≤ max 1 (b.lineCount - 1)

section Views

variable {holds : σ → Text → Prop} {b : Buffer σ} {p : Page} {t : Text}

theorem Shows.lineCount (h : Shows holds b p) : b.lineCount = p.lineCount := by
  rw [Buffer.lineCount, h.index, LineIndex.lineCount_scan, Page.lineCount]

theorem Shows.consistent (h : Shows holds b p) (hp : p.InRange) : Consistent holds b p.text := by
  refine ⟨h.held, h.index, h.cursor ▸ hp.pos, ?_⟩
  rw [h.cursor, h.lineCount]
  exact hp.le

theorem Consistent.shows (h : Consistent holds b t) : Shows holds b ⟨t, b.cursor, b.mode⟩ :=
  ⟨⟨h.held, rfl, rfl⟩, h.index⟩

theorem Consistent.lineCount (h : Consistent holds b t) : b.lineCount = t.feeds + 1 :=
  h.shows.lineCount

theorem Consistent.inRange (h : Consistent holds b t) : Page.InRange ⟨t, b.cursor, b.mode⟩ :=
  ⟨h.cursor_pos, h.shows.lineCount ▸ h.cursor_le⟩

theorem Shows.setCursor (h : Shows holds b p) (line : Nat) :
    Shows holds (b.setCursor line) (p.setCursor line) := by
  rw [Buffer.setCursor, Page.setCursor, h.lineCount]
  split
  · exact ⟨⟨h.held, rfl, h.mode⟩, h.index⟩
  · exact h

theorem Shows.setMode (h : Shows holds b p) (mode : WriteMode) :
    Shows holds (b.setMode mode) { p with mode } :=
  ⟨⟨h.held, h.cursor, rfl⟩, h.index⟩

theorem Shows.aim (h : Shows holds b p) (arg : Option LineArg) :
    Shows holds (Statement.aim arg b) (p.aimed arg) := by
  rcases arg with _ | n | _
  · exact h
  · exact h.setCursor n
  · exact h

end Views

variable {fails : Text → Prop} {holds : σ → Text → Prop} {b b₀ : Buffer σ} {p q : Page}

theorem onStore_ends {α : Type} {operation : StoreOperation} {act : EStateM IoError σ α}
    {ok : α → σ → Prop} {error : IoError → σ → Prop} (h : Ends act b.store ok error) :
    Ends (onStore operation act) b (fun a b' => ok a b'.store ∧ b' = { b with store := b'.store })
      (fun e b' => e.operation = operation ∧ error e.cause b'.store ∧
        b' = { b with store := b'.store }) := by
  refine Ends.adaptExcept (h.within.mono ?_ ?_)
  · rintro a _ ⟨s, ha, rfl⟩
    exact ⟨ha, rfl⟩
  · rintro e _ ⟨s, he, rfl⟩
    exact ⟨rfl, he, rfl⟩

/-- A store call puts a text in place of the one that the page has. What is known of the store may
change with the call. -/
theorem onStore_reads {α : Type} {operation : StoreOperation} {act : EStateM IoError σ α}
    {value : α → Prop} {refused : Prop} {after kept : σ → Text → Prop} {t : Text}
    (h : Reads holds b p)
    (ha : Ends act b.store (fun a s => value a ∧ after s t) fun _ s => refused ∧ kept s p.text) :
    Ends (onStore operation act) b
      (fun a b' => value a ∧ Reads after b' (p.replaced t) ∧ b'.index = b.index)
      (fun e b' => e.operation = operation ∧ refused ∧ Reads kept b' p ∧ b'.index = b.index) := by
  refine (onStore_ends ha).mono ?_ ?_
  · intro a b' hb
    obtain ⟨⟨hv, hs⟩, hb⟩ := hb
    rw [hb]
    exact ⟨hv, ⟨hs, h.cursor, h.mode⟩, rfl⟩
  · intro e b' hb
    obtain ⟨he, ⟨hf, hs⟩, hb⟩ := hb
    rw [hb]
    exact ⟨he, hf, ⟨hs, h.cursor, h.mode⟩, rfl⟩

/-- How a change from `p` to `q` fails. When the store refused it, or could not be read for it, the
buffer holds `p`; when only the scan after it failed, the buffer holds `q`. -/
structure Halted (fails : Text → Prop) (holds : σ → Text → Prop) (b : Buffer σ) (p q : Page)
    (e : BufferError) (b' : Buffer σ) : Prop where
  cause : fails p.text ∨ fails q.text
  index : b'.index = b.index
  reads : Reads holds b' (if e.operation = .scan then q else p)

/-- From any buffer that holds `p`, an action returns `value` and lays down `q`, without a scan. -/
def Lays {α : Type} (fails : Text → Prop) (holds : σ → Text → Prop) (act : Action σ α) (p : Page)
    (value : α) (q : Page) : Prop :=
  ∀ ⦃b : Buffer σ⦄, Reads holds b p →
    Ends act b (fun a b' => a = value ∧ Reads holds b' q ∧ b'.index = b.index)
      fun e b' => e.operation ≠ .scan ∧ Halted fails holds b p q e b'

/-- From any buffer that holds a page, an action returns `value`, lays down `draft` and settles it. -/
def Drafts {α : Type} (fails : Text → Prop) (holds : σ → Text → Prop) (act : Action σ α)
    (value : Page → α) (draft : Page → Page) : Prop :=
  ∀ ⦃b : Buffer σ⦄ ⦃p : Page⦄, Reads holds b p →
    Ends act b (fun a b' => a = value p ∧ Shows holds b' (draft p).settle)
      (Halted fails holds b p (draft p))

/-- A change fails on the page before it or on the one after it. -/
theorem Halted.spans {e : BufferError} {b' : Buffer σ} (h : Halted fails holds b p q e b') :
    ∃ t, p.Spans q t ∧ fails t := by
  rcases h.cause with hf | hf
  · exact ⟨_, Page.spans_left (Nat.le_refl _), hf⟩
  · exact ⟨_, Page.spans_right p q, hf⟩

theorem Drafts.ends {α : Type} {act : Action σ α} {value : Page → α} {draft : Page → Page}
    (hd : Drafts fails holds act value draft) (h : Reads holds b p) :
    Ends act b (fun _ b' => Shows holds b' (draft p).settle)
      (fun _ _ => ∃ t, p.Spans (draft p) t ∧ fails t) :=
  (hd h).mono (fun _ _ => And.right) fun _ _ he => he.spans

theorem Drafts.exists_ok {α : Type} {act : Action σ α} {value : Page → α} {draft : Page → Page}
    (hd : Drafts (fun _ => False) holds act value draft) (h : Reads holds b p) :
    ∃ b', act b = .ok (value p) b' ∧ Shows holds b' (draft p).settle := by
  obtain ⟨_, b', hr, rfl, hb⟩ := (hd h).exists_ok fun _ _ he => he.cause.elim id id
  exact ⟨b', hr, hb⟩

/-- The store fails on no text up to the size of the page. -/
def Bears (fails : Text → Prop) (p : Page) : Prop :=
  ∀ t : Text, t.byteSize ≤ p.text.byteSize → ¬ fails t

theorem Bears.not_fails {t : Text} (hp : Bears fails p) (hq : Bears fails q) (h : p.Spans q t) :
    ¬ fails t := by
  rcases Nat.le_total p.text.byteSize q.text.byteSize with hle | hle
  · exact hq t (Nat.max_eq_right hle ▸ h)
  · exact hp t (Nat.max_eq_left hle ▸ h)

variable [TextStore σ] {α : Type}

/-! ## Changes

Every change of a buffer is one edit of the store with a scan after it, and some read the whole text
before. -/

/-- An edit with a scan after it. -/
def settled (edit : Action σ α) : Action σ α := do
  let a ← edit
  rescan
  pure a

/-- An edit of what is read first, with a scan after it. -/
def changed (edit : Text → Action σ α) : Action σ α := do settled (edit (← contents))

theorem settled_unit (edit : Action σ Unit) : settled edit = (do edit; rescan) :=
  congrArg (edit >>= ·) (funext fun _ => bind_pure_unit)

/-- Adds a text at the end and moves the cursor down, with no scan after it. -/
def addText (t : Text) : Action σ Unit := do
  onStore .append (TextStore.append t)
  modify fun b => { b with cursor := b.cursor + 1 }

/-- Writes `t` over the text `old` at the cursor. -/
def writeOver (t old : Text) : Action σ Unit := do
  let b ← get
  let place := b.cursor - 1
  let new := splice b.mode place old.pieces t.pieces
  let cursor := if place < old.pieces.length then b.cursor + 1 else new.length
  onStore .write (TextStore.replace new.flatten)
  modify fun b => { b with cursor, mode := .insert }

/-- Cuts the text `old` before its last `ch`. -/
def cutFrom (ch : Char) (old : Text) : Action σ Bool :=
  match old.beforeLast ch with
  | some (c :: r) => do
    onStore .truncate (TextStore.truncate (Text.byteSize (c :: r)))
    pure true
  | _ => pure false

/-- Removes lines of the text `old`. -/
def removeFrom (start size : Nat) (old : Text) : Action σ Unit :=
  if start - 1 < old.pieces.length then
    onStore .delete (TextStore.replace
      (old.pieces.take (start - 1) ++ old.pieces.drop (start - 1 + size + 1)).flatten)
  else pure ()

theorem reset_eq (t : Text) : reset (σ := σ) t = settled (onStore .reset (TextStore.replace t)) :=
  (settled_unit _).symm

theorem append_eq (t : Text) : append (σ := σ) t = settled (addText t) := by
  simp only [settled_unit, addText, bind_assoc]
  rfl

/-- A write splices its lines in, past the end as well as inside the text. -/
theorem write_eq (t : Text) : write (σ := σ) t = changed (writeOver t) := by
  unfold write changed
  refine congrArg (contents >>= ·) (funext fun old => ?_)
  simp only [settled_unit, writeOver, bind_assoc]
  refine congrArg (get >>= ·) (funext fun b => ?_)
  by_cases hp : b.cursor - 1 < old.pieces.length
  · simp only [if_pos hp, layAll_eq_splice (Nat.le_of_lt hp)]
  · simp only [if_neg hp, splice_of_length_le (Nat.le_of_not_lt hp)]

theorem eraseThrough_eq (ch : Char) : eraseThrough (σ := σ) ch = changed (cutFrom ch) := by
  refine congrArg (contents >>= ·) (funext fun text => ?_)
  cases hc : text.beforeLast ch with
  | none => simp only [settled, cutFrom, hc, pure_bind]
  | some before =>
    cases before with
    | nil => simp only [settled, cutFrom, hc, pure_bind]
    | cons c r => simp only [settled, cutFrom, hc, bind_assoc, pure_bind]

theorem deleteLines_eq {start : Nat} (h : 0 < start) (size : Nat) :
    deleteLines (σ := σ) start size = changed (removeFrom start size) := by
  unfold deleteLines
  rw [if_neg (Nat.ne_of_gt h)]
  refine congrArg (contents >>= ·) (funext fun text => ?_)
  rw [settled_unit]
  by_cases hlt : start - 1 < text.pieces.length
  · simp only [removeFrom, if_pos hlt]
  · simp only [removeFrom, if_neg hlt, pure_bind]

/-! ## Edits -/

omit [TextStore σ] in
/-- An edit that the store refuses leaves the page. -/
theorem onStore_lays {operation : StoreOperation} (ho : operation ≠ .scan)
    {act : EStateM IoError σ α} {value : α} {t : Text}
    (ha : ∀ s, holds s p.text → Ends act s (fun a s => a = value ∧ holds s t)
      fun _ s => (fails p.text ∨ fails t) ∧ holds s p.text) :
    Lays fails holds (onStore operation act) p value (p.replaced t) := by
  intro b h
  refine (onStore_reads h (ha _ h.held)).mono (fun _ _ => id) ?_
  intro e b' he
  obtain ⟨he, hf, hb, hi⟩ := he
  exact ⟨he ▸ ho, hf, hi, by rwa [if_neg (he ▸ ho)]⟩

omit [TextStore σ] in
/-- What is done to the cursor and the mode once the store has its text. -/
theorem Lays.then_modify {edit : Action σ Unit} {f : Buffer σ → Buffer σ} {r : Page}
    (h : Lays fails holds edit p () q) (ht : r.text = q.text)
    (hf : ∀ b, Reads holds b q → Reads holds (f b) r ∧ (f b).index = b.index) :
    Lays fails holds (do edit; modify f) p () r := by
  intro b hb
  refine (h hb).bind ?_ ?_
  · intro _ b₁ h₁
    obtain ⟨-, h₁, hi⟩ := h₁
    obtain ⟨h₂, hi₂⟩ := hf b₁ h₁
    exact ⟨rfl, h₂, hi₂.trans hi⟩
  · intro e b₁ he
    obtain ⟨he, hf, hi, h₁⟩ := he
    rw [if_neg he] at h₁
    exact ⟨he, ht ▸ hf, hi, by rwa [if_neg he]⟩

section Edits

variable (k : Edits fails holds)
include k

theorem replace_lays {operation : StoreOperation} (ho : operation ≠ .scan) (p : Page) (t : Text) :
    Lays fails holds (onStore operation (TextStore.replace t)) p () (p.replaced t) :=
  onStore_lays ho fun _ hs => (k.replace t hs).mono (fun _ _ h => ⟨rfl, h⟩)
    fun _ _ h => ⟨.inr h.1, h.2⟩

theorem addText_lays (p : Page) (t : Text) : Lays fails holds (addText t) p () (p.appended t) := by
  have hs : Lays fails holds (onStore .append (TextStore.append t)) p () (p.replaced (p.text ++ t)) :=
    onStore_lays (by decide) fun _ hs => (k.append t hs).mono (fun _ _ h => ⟨rfl, h⟩)
      fun _ _ h => ⟨.inr h.1, h.2⟩
  refine hs.then_modify rfl fun b h => ⟨⟨h.held, ?_, h.mode⟩, rfl⟩
  show b.cursor + 1 = p.cursor + 1
  rw [h.cursor]
  rfl

theorem writeOver_lays (p : Page) (t : Text) :
    Lays fails holds (writeOver t p.text) p () (p.written t) := by
  intro b h
  refine Ends.get_bind ?_
  rw [h.cursor, h.mode]
  refine (replace_lays k (by decide) p _).then_modify (r := p.written t) rfl ?_ h
  intro b h
  exact ⟨⟨h.held, rfl, rfl⟩, rfl⟩

theorem truncate_lays {t u : Text} (ht : p.text = t ++ u) :
    Lays fails holds (onStore .truncate (TextStore.truncate t.byteSize)) p () (p.replaced t) :=
  onStore_lays (by decide) fun _ hs => (k.truncate (ht ▸ hs)).mono (fun _ _ h => ⟨rfl, h⟩)
    fun _ _ h => ⟨.inl (ht ▸ h.1), ht ▸ h.2⟩

theorem cutFrom_lays (p : Page) (ch : Char) :
    Lays fails holds (cutFrom ch p.text) p (decide (ch ∈ p.text.tail)) (p.erased ch) := by
  unfold cutFrom
  split
  · rename_i c r hc
    obtain ⟨u, ht, -⟩ := Text.exists_of_beforeLast hc
    have hcut : p.text.cutBefore ch = c :: r := by rw [Text.cutBefore, hc]
    have hm : decide (ch ∈ p.text.tail) = true := decide_eq_true (by simp [ht])
    rw [hm, Page.erased, hcut]
    intro b h
    refine (truncate_lays k ht h).bind ?_ fun _ _ => id
    intro _ b₁ h₁
    exact ⟨rfl, h₁.2⟩
  · rename_i hn
    have hcut : p.text.cutBefore ch = p.text := by
      unfold Text.cutBefore
      split
      · rename_i c r hc
        exact absurd hc (hn c r)
      · rfl
    rw [decide_eq_false (Text.cutBefore_eq_self.mp hcut), Page.erased, hcut]
    exact fun b h => ⟨rfl, h, rfl⟩

theorem removeFrom_lays {start : Nat} (hs : 0 < start) (p : Page) (size : Nat) :
    Lays fails holds (removeFrom start size p.text) p () (p.without start size) := by
  have hend : start - 1 + size + 1 = start + size := by omega
  have hnew : p.without start size = p.replaced
      (p.text.pieces.take (start - 1) ++ p.text.pieces.drop (start - 1 + size + 1)).flatten := by
    rw [Page.without_of_pos hs, List.flatten_append, hend]
    rfl
  unfold removeFrom
  split
  · rw [hnew]
    exact replace_lays k (by decide) p _
  · rename_i hlt
    have hn : p.Lacks start := .inr (by omega)
    rw [hn.without_eq]
    exact fun b h => ⟨rfl, h, rfl⟩

end Edits

/-! ## Edits and their scan -/

theorem rescan_of_load {after : σ → Text → Prop} {error : BufferError → Buffer σ → Prop}
    (h : Ends (onStore .scan TextStore.load) b
      (fun t b' => t = q.text ∧ Reads after b' q ∧ b'.index = b.index) error) :
    Ends rescan b (fun _ b' => Shows after b' q.settle) error := by
  refine h.bind ?_ fun _ _ => id
  intro _ b₁ h₁
  obtain ⟨rfl, h₁, -⟩ := h₁
  refine ⟨⟨h₁.held, ?_, h₁.mode⟩, rfl⟩
  show clamp _ _ = clamp _ _
  rw [LineIndex.lineCount_scan, h₁.cursor, Page.lineCount]

section Changes

variable (k : Keeps fails holds)
include k

theorem load_ends (operation : StoreOperation) (h : Reads holds b p) :
    Ends (onStore operation TextStore.load) b
      (fun t b' => t = p.text ∧ Reads holds b' p ∧ b'.index = b.index)
      (fun e b' => e.operation = operation ∧ fails p.text ∧ Reads holds b' p ∧
        b'.index = b.index) :=
  onStore_reads h (k.load h.held)

theorem rescan_ends (h : Reads holds b q) (hi : b.index = b₀.index) :
    Ends rescan b (fun _ b' => Shows holds b' q.settle) (Halted fails holds b₀ p q) := by
  refine rescan_of_load ((load_ends k .scan h).mono (fun _ _ => id) ?_)
  intro e b₁ he
  obtain ⟨he, hf, h₁, hi₁⟩ := he
  exact ⟨.inr hf, hi₁.trans hi, by rwa [if_pos he]⟩

theorem settled_ends {edit : Action σ α} {value : α} (hl : Lays fails holds edit p value q)
    (h : Reads holds b p) :
    Ends (settled edit) b (fun a b' => a = value ∧ Shows holds b' q.settle)
      (Halted fails holds b p q) := by
  refine (hl h).bind ?_ fun _ _ he => he.2
  intro a b₁ h₁
  obtain ⟨rfl, h₁, hi⟩ := h₁
  exact (rescan_ends k h₁ hi).bind (fun _ _ h₂ => ⟨rfl, h₂⟩) fun _ _ => id

theorem changed_ends {edit : Text → Action σ α} {value : α}
    (hl : Lays fails holds (edit p.text) p value q) (h : Reads holds b p) :
    Ends (changed edit) b (fun a b' => a = value ∧ Shows holds b' q.settle)
      (Halted fails holds b p q) := by
  refine (load_ends k .read h).bind ?_ ?_
  · intro _ b₁ h₁
    obtain ⟨rfl, h₁, hi⟩ := h₁
    exact (settled_ends k hl h₁).mono (fun _ _ => id)
      fun _ _ he => ⟨he.cause, he.index.trans hi, he.reads⟩
  · intro e b₁ he
    obtain ⟨he, hf, h₁, hi⟩ := he
    exact ⟨.inl hf, hi, by rwa [he]⟩

theorem rescan_drafts : Drafts fails holds rescan (fun _ => ()) id :=
  fun _ _ h => (rescan_ends k h rfl).mono (fun _ _ h => ⟨rfl, h⟩) fun _ _ => id

theorem reset_drafts (t : Text) : Drafts fails holds (reset t) (fun _ => ()) (Page.replaced t) := by
  intro b p h
  rw [reset_eq]
  exact settled_ends k (replace_lays k.toEdits (by decide) p t) h

theorem append_drafts (t : Text) :
    Drafts fails holds (append t) (fun _ => ()) (Page.appended t) := by
  intro b p h
  rw [append_eq]
  exact settled_ends k (addText_lays k.toEdits p t) h

theorem write_drafts (t : Text) :
    Drafts fails holds (write t) (fun _ => ()) (Page.written t) := by
  intro b p h
  rw [write_eq]
  exact changed_ends k (writeOver_lays k.toEdits p t) h

theorem eraseThrough_drafts (ch : Char) :
    Drafts fails holds (eraseThrough ch) (fun p => decide (ch ∈ p.text.tail)) (Page.erased ch) := by
  intro b p h
  rw [eraseThrough_eq]
  exact changed_ends k (cutFrom_lays k.toEdits p ch) h

theorem deleteLines_drafts {start : Nat} (hs : 0 < start) (size : Nat) :
    Drafts fails holds (deleteLines start size) (fun _ => ()) (Page.without start size) := by
  intro b p h
  rw [deleteLines_eq hs]
  exact changed_ends k (removeFrom_lays k.toEdits hs p size) h

/-- Line 0 is no line, so that nothing happens to a buffer that is in order. -/
theorem deleteLines_ends (h : Shows holds b p) (hp : p.InRange) (start size : Nat) :
    Ends (deleteLines start size) b
      (fun a b' => a = () ∧ Shows holds b' (p.without start size).settle)
      (Halted fails holds b p (p.without start size)) := by
  by_cases hs : start = 0
  · subst hs
    exact ⟨rfl, hp.settle_eq.symm ▸ h⟩
  · exact deleteLines_drafts k (Nat.pos_of_ne_zero hs) size h.toReads

theorem reseal_ends (h : Reads holds b p) :
    Ends reseal b (fun a b' => a = () ∧ Shows holds b' p.resealed)
      (fun _ _ => ∃ t ∈ [p.text, (p.erased closingBrace).text, p.resealed.text], fails t) := by
  refine Ends.get_bind ((eraseThrough_drafts k closingBrace h).bind ?_ ?_)
  · intro _ b₁ h₁
    refine (append_drafts k closingLine h₁.2.toReads).bind ?_ ?_
    · intro _ b₂ h₂
      exact ⟨rfl, h.cursor ▸ h₂.2.setCursor _⟩
    · intro e b₂ he
      rcases he.cause with hf | hf
      · exact ⟨_, by simp, hf⟩
      · exact ⟨_, by simp [Page.resealed_text], hf⟩
  · intro e b₁ he
    rcases he.cause with hf | hf
    · exact ⟨_, by simp, hf⟩
    · exact ⟨_, by simp, hf⟩

theorem reseal_spans (h : Reads holds b p) :
    Ends reseal b (fun a b' => a = () ∧ Shows holds b' p.resealed)
      (fun _ _ => ∃ t, p.Spans p.resealed t ∧ fails t) := by
  refine (reseal_ends k h).mono (fun _ _ => id) ?_
  intro e b' he
  obtain ⟨t, ht, hf⟩ := he
  refine ⟨t, ?_, hf⟩
  simp only [List.mem_cons, List.not_mem_nil, or_false] at ht
  rcases ht with rfl | rfl | rfl
  · exact Page.spans_left (Nat.le_refl _)
  · exact Page.spans_left (Page.byteSize_erased_le closingBrace p)
  · exact Page.spans_right p _

end Changes

section Readings

variable (k : Keeps fails holds)
include k

theorem contents_ends (h : Shows holds b p) :
    Ends contents b (fun t b' => t = p.text ∧ Shows holds b' p)
      (fun _ b' => fails p.text ∧ Shows holds b' p) :=
  (load_ends k .read h.toReads).mono
    (fun _ _ ⟨ht, hb, hi⟩ => ⟨ht, hb, hi.trans h.index⟩)
    (fun _ _ ⟨_, hf, hb, hi⟩ => ⟨hf, hb, hi.trans h.index⟩)

theorem listing_ends (h : Shows holds b p) :
    Ends listing b (fun r b' => r = p.text.lines ∧ Shows holds b' p)
      (fun _ b' => fails p.text ∧ Shows holds b' p) :=
  (contents_ends k h).map fun _ _ ⟨ht, hb⟩ => ⟨congrArg Text.lines ht, hb⟩

end Readings

section Lines

variable (k : Edits fails holds)
include k

theorem readLineAt_ends {t u : Text} (h : Shows holds b p) (hc : t.Complete)
    (ht : p.text = t ++ u) :
    Ends (onStore .read (TextStore.readLineAt t.byteSize)) b
      (fun r b' => r = u.firstPiece ∧ Shows holds b' p)
      (fun _ b' => fails p.text ∧ Shows holds b' p) := by
  have hr := k.readLineAt hc (ht ▸ h.held)
  rw [← ht] at hr
  refine (onStore_reads h.toReads hr).mono ?_ ?_
  · intro r b' hb
    exact ⟨hb.1, hb.2.1, hb.2.2.trans h.index⟩
  · intro e b' hb
    exact ⟨hb.2.1, hb.2.2.1, hb.2.2.2.trans h.index⟩

/-- A line that is there reads as its stored line without the line feed. -/
theorem line_ends_of_le (h : Shows holds b p) {n : Nat} (hn : n ≤ p.text.feeds) :
    Ends (line (n + 1)) b
      (fun r b' => r = Text.dropFeed (p.text.pieces[n]?.getD []) ∧ Shows holds b' p)
      (fun _ b' => fails p.text ∧ Shows holds b' p) := by
  have hl : line (n + 1) b =
      (Text.dropFeed <$> onStore .read (TextStore.readLineAt (p.text.lead n).byteSize)) b := by
    simp only [line, h.index, LineIndex.offset?_scan hn]
  rw [Ends, hl]
  refine (readLineAt_ends k h (Text.complete_lead hn) (Text.lead_append_rest n p.text).symm).map ?_
  intro r b' hr
  exact ⟨by rw [hr.1, Text.firstPiece_rest], hr.2⟩

theorem line_ends (h : Shows holds b p) (n : Nat) :
    Ends (line n) b
      (fun r b' => r = ((if n = 0 then none else (Text.fields '\n' p.text)[n - 1]?).getD []) ∧
        Shows holds b' p)
      (fun _ b' => fails p.text ∧ Shows holds b' p) := by
  cases n with
  | zero => exact ⟨rfl, h⟩
  | succ n =>
    rw [if_neg (Nat.succ_ne_zero n), Nat.add_sub_cancel]
    by_cases hn : n ≤ p.text.feeds
    · rw [Text.fields_getElem? hn]
      exact line_ends_of_le k h hn
    · have hl : line (n + 1) b = .ok [] b := by
        simp only [line, h.index, LineIndex.offset?_scan_eq_none (Nat.lt_of_not_le hn)]
      have hlen := Text.length_fields p.text
      rw [Ends, hl, List.getElem?_eq_none (by omega)]
      exact ⟨rfl, h⟩

/-- The last line reads as the last stored line, also when the text ends in a line feed and the
line behind it is empty. -/
theorem lastLine_ends (h : Shows holds b p) :
    Ends lastLine b (fun r b' => r = p.text.lastPiece.dropFeed ∧ Shows holds b' p)
      (fun _ b' => fails p.text ∧ Shows holds b' p) := by
  refine Ends.get_bind ?_
  rw [h.lineCount]
  refine (line_ends_of_le k h (Nat.le_refl _)).bind ?_ fun _ _ => id
  intro r b₁ hr
  obtain ⟨rfl, h₁⟩ := hr
  by_cases hc : p.text.Complete
  · have hl := Text.length_pieces_of_complete hc
    rw [List.getElem?_eq_none (Nat.le_of_eq hl), Option.getD_none, Text.dropFeed_nil]
    by_cases hf : p.text.feeds = 0
    · have hnil : p.text.pieces = [] := List.eq_nil_of_length_eq_zero (hl.trans hf)
      rw [Page.lineCount, hf]
      exact ⟨by rw [Text.lastPiece, hnil]; rfl, h₁⟩
    · obtain ⟨n, hn⟩ := Nat.exists_eq_succ_of_ne_zero hf
      have hcount : p.lineCount - 1 = n + 1 := by rw [Page.lineCount, hn]; rfl
      have hlt : 1 < p.lineCount := by rw [Page.lineCount, hn]; omega
      rw [if_pos (by simpa using hlt), hcount, Text.lastPiece_eq_getElem?, hl, hn]
      exact line_ends_of_le k h₁ (by omega)
  · have hl := Text.length_pieces_of_not_complete hc
    have hlast : p.text.pieces[p.text.feeds]?.getD [] = p.text.lastPiece := by
      rw [Text.lastPiece_eq_getElem?, hl]
      rfl
    have hd := Text.dropFeed_of_not_complete (mt Text.complete_lastPiece.mp hc)
    have hne : p.text.lastPiece ≠ [] := fun e => by
      rw [← Text.complete_lastPiece, e] at hc
      exact hc Text.complete_nil
    rw [hlast, if_neg (by simp [hd, hne])]
    exact ⟨rfl, h₁⟩

end Lines

section Statements

variable (k : Keeps fails holds)
include k

/-- What `del` may stumble over: the text it finds, the one without the lines, and the ones that
closing that makes. -/
theorem runDelete_ends (h : Shows holds b p) (hp : p.InRange) (arg : Option LineArg) :
    Ends (Statement.runDelete arg) b (fun a b' => a = () ∧ Shows holds b' (p.deleted arg))
      (fun _ _ => ∃ t ∈ [p.text, (p.shortened arg).text,
        ((p.shortened arg).erased closingBrace).text, (p.deleted arg).text], fails t) := by
  refine Ends.get_bind ?_
  rw [h.cursor]
  refine (deleteLines_ends k h hp _ _).bind ?_ ?_
  · intro r b₁ hr
    obtain ⟨-, h₁⟩ := hr
    have h₂ : Shows holds (b₁.setCursor (Statement.deletion p.cursor arg).1) (p.shortened arg) :=
      h₁.setCursor _
    refine Ends.modify_bind ((lastLine_ends k.toEdits h₂).bind ?_ ?_)
    · intro r b₃ hr
      obtain ⟨rfl, h₃⟩ := hr
      rw [Text.contains_dropFeed (by decide)]
      unfold Page.deleted
      dsimp only
      split
      · exact ⟨rfl, h₃⟩
      · refine (reseal_ends k h₃.toReads).mono (fun _ _ => id) ?_
        intro e b₄ he
        obtain ⟨t, ht, hf⟩ := he
        exact ⟨t, List.mem_cons_of_mem _ ht, hf⟩
    · intro e b₃ he
      exact ⟨_, by simp, he.1⟩
  · intro e b₁ he
    rcases he.cause with hf | hf
    · exact ⟨_, by simp, hf⟩
    · exact ⟨(p.shortened arg).text, by simp, Page.shortened_text arg p ▸ hf⟩

/-- A statement fails only on what it comes past: no text larger than both the one that it finds and
the one that it leaves. -/
theorem run_spans (h : Shows holds b p) (hp : p.InRange) (skeleton : Text) (s : Statement) :
    Ends (s.run skeleton) b
      (fun a b' => a = p.request s ∧ Shows holds b' (p.applied skeleton s))
      (fun _ _ => ∃ t, p.Spans (p.applied skeleton s) t ∧ fails t) := by
  unfold Statement.run Page.request Page.applied
  cases s.command with
  | delete =>
    refine (runDelete_ends k h hp s.arg).bind ?_ ?_
    · intro a b₁ h₁
      exact ⟨rfl, h₁.2⟩
    · intro e b₁ he
      obtain ⟨t, ht, hf⟩ := he
      have hs := Page.byteSize_shortened_le s.arg p
      have hc := Page.byteSize_erased_le closingBrace (p.shortened s.arg)
      refine ⟨t, ?_, hf⟩
      simp only [List.mem_cons, List.not_mem_nil, or_false] at ht
      rcases ht with rfl | rfl | rfl | rfl
      · exact Page.spans_left (Nat.le_refl _)
      · exact Page.spans_left hs
      · exact Page.spans_left (Nat.le_trans hc hs)
      · exact Page.spans_right p _
  | goto => exact ⟨rfl, h.aim s.arg⟩
  | insert => exact ⟨rfl, (h.aim s.arg).setMode _⟩
  | replace => exact ⟨rfl, (h.aim s.arg).setMode _⟩
  | reset =>
    exact ((reset_drafts k skeleton).ends h.toReads).bind (fun _ _ h₁ => ⟨rfl, h₁⟩) fun _ _ => id
  | print =>
    refine ((listing_ends k h).map ?_).mono (fun _ _ => id) ?_
    · intro r b₁ hr
      exact ⟨congrArg Action.print hr.1, hr.2⟩
    · intro e b₁ he
      exact ⟨_, Page.spans_right p _, he.1⟩
  | clearScreen => exact ⟨rfl, h⟩
  | help => exact ⟨rfl, h⟩
  | quit => exact ⟨rfl, h⟩

theorem run_ends (h : Shows holds b p) (hp : p.InRange) (skeleton : Text) (s : Statement) :
    Ends (s.run skeleton) b
      (fun a b' => a = p.request s ∧ Shows holds b' (p.applied skeleton s))
      (fun _ _ => ∃ t, fails t) := by
  refine (run_spans k h hp skeleton s).mono (fun _ _ => id) ?_
  intro e b₁ he
  obtain ⟨t, -, hf⟩ := he
  exact ⟨t, hf⟩

end Statements

section Submitted

variable {skeleton line : Text}

theorem runLine_text (h : Statement.isStatement line = false) :
    runLine skeleton line = (pure (.commit line) : EStateM _ (Buffer σ) _) := by
  funext b
  simp only [runLine, h, pure_apply]
  rfl

theorem runLine_error (h : Statement.isStatement line = true) {e : CommandError}
    (hp : Statement.parse line = .error e) (b : Buffer σ) :
    runLine skeleton line b = .error (.command e) b := by
  simp only [runLine, h, hp, if_pos]

theorem runLine_statement (h : Statement.isStatement line = true) {s : Statement}
    (hp : Statement.parse line = .ok s) :
    runLine skeleton line = ((s.run skeleton).adaptExcept .buffer : EStateM _ (Buffer σ) _) := by
  funext b
  rw [adaptExcept_apply]
  simp only [runLine, h, hp, if_pos]
  cases s.run skeleton b <;> rfl

end Submitted

end LineRepl.Buffer
