import LineRepl.Proofs.BufferSteps

/-! Buffers that come back into order. A failed change, or a change of the store behind the buffer,
leaves an index that tells of another text and a cursor that stands anywhere. Each change of the
text ends in a scan, which asks nothing of the buffer, so the first one that succeeds puts both in
order again. -/
namespace LineRepl

open Attempt

/-- A load that succeeds tells the text that the store keeps then. Nothing is said of other calls,
nor of when a load succeeds. -/
def Tells {σ : Type} [TextStore σ] (kept : σ → Option Text) : Prop :=
  ∀ s : σ, Ends TextStore.load s (fun t s => kept s = some t) fun _ _ => True

namespace FileStore

/-- The text of the file, if it can be read. One that is missing reads as empty. -/
def kept (s : FileStore) : Option Text :=
  match s.tree.bytesOf s.path with
  | .ok data => data.text?
  | .error e => if e.kind = .notFound then some [] else none

theorem tells : Tells kept := by
  intro s
  show Ends load s _ _
  unfold Ends load
  cases hd : s.tree.bytesOf s.path with
  | ok data =>
    cases ht : data.text? with
    | some t => simp only [ht, kept, hd]
    | none => simp only [ht]
  | error e =>
    by_cases he : e.kind = .notFound
    · simp only [he, if_true, kept, hd]
    · simp only [he, if_false]

end FileStore

/-- A schedule refuses loads, and those that it lets through tell what the store behind it keeps. -/
theorem FaultyStore.tells {σ : Type} [TextStore σ] {kept : σ → Option Text} (l : Tells kept) :
    Tells fun s : FaultyStore σ => kept s.inner := by
  intro s
  show Ends (attempt .load TextStore.load) s _ _
  unfold Ends attempt
  cases s.schedule .load (s.made .load) with
  | some e => trivial
  | none =>
    cases ha : TextStore.load s.inner with
    | ok t r => exact (l s.inner).ok_of ha
    | error e r => trivial

namespace Buffer

/-- The steps that end in a scan. Those that only move the cursor or set the mode do not, nor does
removing line 0. -/
def Step.Scans : Step → Prop
  | setCursor _ | setMode _ | dispatch .. => False
  | deleteLines start _ => 1 ≤ start
  | _ => True

variable {σ α : Type} {holds : σ → Text → Prop} {b : Buffer σ} {t : Text}

theorem clamp_mem (count cursor : Nat) :
    1 ≤ clamp count cursor ∧ clamp count cursor ≤ max 1 (count - 1) := by
  unfold clamp
  omega

theorem Consistent.setCursor (h : Consistent holds b t) (line : Nat) :
    Consistent holds (b.setCursor line) t := by
  have hp := (h.shows.setCursor line).consistent (h.inRange.setCursor line)
  rwa [Page.setCursor_text] at hp

/-- The buffer is in order for the text that its store keeps. -/
def InOrder (kept : σ → Option Text) (b : Buffer σ) : Prop :=
  ∃ t, Consistent (fun s t => kept s = some t) b t

section Scans

variable [TextStore σ] {kept : σ → Option Text} (l : Tells kept)
include l

theorem rescan_recovers (b : Buffer σ) :
    Ends rescan b (fun _ b' => InOrder kept b') fun _ _ => True := by
  refine (onStore_ends (l b.store)).bind ?_ fun _ _ _ => trivial
  intro t b₁ h₁
  obtain ⟨hpos, hle⟩ := clamp_mem (LineIndex.scan t).lineCount b₁.cursor
  exact ⟨t, h₁.1, rfl, hpos, hle⟩

theorem settled_recovers (edit : Action σ α) (b : Buffer σ) :
    Ends (settled edit) b (fun _ b' => InOrder kept b') fun _ _ => True := by
  refine Ends.any.bind ?_ fun _ _ => id
  intro a b₁ _
  exact (rescan_recovers l b₁).bind (fun _ _ h => h) fun _ _ => id

theorem changed_recovers (edit : Text → Action σ α) (b : Buffer σ) :
    Ends (changed edit) b (fun _ b' => InOrder kept b') fun _ _ => True :=
  Ends.any.bind (fun t b₁ _ => settled_recovers l (edit t) b₁) fun _ _ => id

theorem append_recovers (text : Text) (b : Buffer σ) :
    Ends (append text) b (fun _ b' => InOrder kept b') fun _ _ => True := by
  rw [append_eq]
  exact settled_recovers l (addText text) b

theorem eraseThrough_recovers (ch : Char) (b : Buffer σ) :
    Ends (eraseThrough ch) b (fun _ b' => InOrder kept b') fun _ _ => True := by
  rw [eraseThrough_eq]
  exact changed_recovers l (cutFrom ch) b

/-- The cursor is put back after the last scan, and only to where it may stand. -/
theorem reseal_recovers (b : Buffer σ) :
    Ends reseal b (fun _ b' => InOrder kept b') fun _ _ => True := by
  refine Ends.get_bind (Ends.any.bind ?_ fun _ _ => id)
  intro _ b₁ _
  refine (append_recovers l closingLine b₁).bind ?_ fun _ _ => id
  intro _ b₂ h₂
  obtain ⟨t, ht⟩ := h₂
  exact ⟨t, ht.setCursor b.cursor⟩

theorem run_recovers {s : Step} (hs : s.Scans) (b : Buffer σ) :
    Ends s.run b (fun _ b' => InOrder kept b') fun _ _ => True := by
  cases s with
  | write text =>
    show Ends (write text) b _ _
    rw [write_eq]
    exact changed_recovers l (writeOver text) b
  | append text => exact append_recovers l text b
  | reset text =>
    show Ends (reset text) b _ _
    rw [reset_eq]
    exact settled_recovers l _ b
  | rescan => exact rescan_recovers l b
  | deleteLines start size =>
    show Ends (deleteLines start size) b _ _
    rw [deleteLines_eq hs]
    exact changed_recovers l (removeFrom start size) b
  | eraseThrough ch => exact (eraseThrough_recovers l ch b).bind (fun _ _ h => h) fun _ _ => id
  | reseal => exact reseal_recovers l b
  | setCursor line => exact hs.elim
  | setMode mode => exact hs.elim
  | dispatch skeleton s => exact hs.elim

/-- **A buffer is in order after any step with a scan that succeeds**, whatever its index and its
cursor were before, whatever was done to its store, and whichever calls of the store are refused:
the index is that of the text that the store keeps, and the cursor stands where it may. -/
theorem scanning_step_recovers {s : Step} (hs : s.Scans) {b b' : Buffer σ}
    (h : s.run b = .ok () b') :
    ∃ t, kept b'.store = some t ∧ b'.index = LineIndex.scan t ∧ 1 ≤ b'.cursor ∧
      b'.cursor ≤ max 1 (b'.lineCount - 1) := by
  have hr := run_recovers l hs b
  rw [Ends, h] at hr
  obtain ⟨t, ht⟩ := hr
  exact ⟨t, ht.held, ht.index, ht.cursor_pos, ht.cursor_le⟩

end Scans

/-- A buffer over a file that others wrote: its index is that of a text that is gone, its cursor is
far behind the end, and the store refuses loads from the fourth on. -/
def outdated : Buffer (FaultyStore FileStore) where
  store :=
    { inner := ⟨⟨[], [([['f']], .file (Text.utf8 "é\x7d\x7d\nx".toList) false)]⟩, "f"⟩
      schedule := fun call n => if call = .load ∧ 3 ≤ n then some .notUtf8 else none }
  index := ⟨[1, 40]⟩
  cursor := 77

/-- Closing the text again takes three loads and puts such a buffer in order. -/
theorem scanning_step_recovers_outdated :
    Step.reseal.Scans ∧ ∃ b' t, Step.reseal.run outdated = .ok () b' ∧
      b'.store.inner.kept = some t ∧ b'.index = LineIndex.scan t ∧ 1 ≤ b'.cursor ∧
      b'.cursor ≤ max 1 (b'.lineCount - 1) := by
  obtain ⟨b', hb⟩ : ∃ b', Step.reseal.run outdated = .ok () b' := ⟨_, rfl⟩
  have hs : Step.reseal.Scans := trivial
  obtain ⟨t, h⟩ := scanning_step_recovers (FaultyStore.tells FileStore.tells) hs hb
  exact ⟨hs, b', t, hb, h⟩

end Buffer
end LineRepl
