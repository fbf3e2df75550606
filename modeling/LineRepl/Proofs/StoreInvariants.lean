import LineRepl.Command.Dispatch
import LineRepl.Proofs.BufferPages

/-! What the calls of a store keep. A buffer reaches its store through the five calls and in no other
way, so what each of them keeps, also when it fails, is kept by all that is done to the buffer. -/
namespace LineRepl

open Attempt

/-- Every call keeps `I`, however it ends. -/
structure Stable {σ : Type} [TextStore σ] (I : σ → Prop) : Prop where
  load {s : σ} : I s → Ends TextStore.load s (fun _ s => I s) fun _ s => I s
  replace {s : σ} (t : Text) : I s → Ends (TextStore.replace t) s (fun _ s => I s) fun _ s => I s
  append {s : σ} (t : Text) : I s → Ends (TextStore.append t) s (fun _ s => I s) fun _ s => I s
  truncate {s : σ} (size : Nat) : I s →
    Ends (TextStore.truncate size) s (fun _ s => I s) fun _ s => I s
  readLineAt {s : σ} (offset : Nat) : I s →
    Ends (TextStore.readLineAt offset) s (fun _ s => I s) fun _ s => I s

theorem Stable.and {σ : Type} [TextStore σ] {I J : σ → Prop} (hI : Stable I) (hJ : Stable J) :
    Stable fun s => I s ∧ J s where
  load h := (hI.load h.1).both (hJ.load h.2)
  replace t h := (hI.replace t h.1).both (hJ.replace t h.2)
  append t h := (hI.append t h.1).both (hJ.append t h.2)
  truncate size h := (hI.truncate size h.1).both (hJ.truncate size h.2)
  readLineAt offset h := (hI.readLineAt offset h.1).both (hJ.readLineAt offset h.2)

section Wraps

variable {σ τ : Type} [TextStore σ] [TextStore τ] {part : σ → τ} {put : τ → σ → σ}

theorem Wraps.stable (w : Wraps part put) {I : τ → Prop} (st : Stable I) :
    Stable fun s => I (part s) where
  load h := w.ends w.load (st.load h)
  replace t h := w.ends (w.replace t) (st.replace t h)
  append t h := w.ends (w.append t) (st.append t h)
  truncate size h := w.ends (w.truncate size) (st.truncate size h)
  readLineAt offset h := w.ends (w.readLineAt offset) (st.readLineAt offset h)

/-- No call reaches what is beside the part. -/
theorem Wraps.stable_rest (w : Wraps part put) {R : σ → Prop} (h : ∀ s t, R s → R (put t s)) :
    Stable R := by
  have hcall {α : Type} {call : EStateM IoError σ α} {inner : EStateM IoError τ α}
      (hcall : call = within part put inner) {s : σ} (hs : R s) :
      Ends call s (fun _ s => R s) fun _ s => R s := by
    rw [hcall]
    exact .within_rest fun t => h s t hs
  exact ⟨hcall w.load, fun t => hcall (w.replace t), fun t => hcall (w.append t),
    fun size => hcall (w.truncate size), fun offset => hcall (w.readLineAt offset)⟩

end Wraps

theorem Keeps.of_iff {σ : Type} [TextStore σ] {fails : Text → Prop} {holds held : σ → Text → Prop}
    (k : Keeps fails holds) (h : ∀ s t, holds s t ↔ held s t) : Keeps fails held := by
  have heq : holds = held := funext fun s => funext fun t => propext (h s t)
  exact heq ▸ k

/-- A text is kept together with whatever every call keeps. -/
theorem Keeps.with_stable {σ : Type} [TextStore σ] {fails : Text → Prop} {holds : σ → Text → Prop}
    {I : σ → Prop} (k : Keeps fails holds) (st : Stable I) :
    Keeps fails fun s t => holds s t ∧ I s where
  load h := ((k.load h.1).both (st.load h.2)).mono
    (fun _ _ ⟨⟨ht, hs⟩, hi⟩ => ⟨ht, hs, hi⟩) fun _ _ ⟨⟨hf, hs⟩, hi⟩ => ⟨hf, hs, hi⟩
  replace u h := ((k.replace u h.1).both (st.replace u h.2)).mono
    (fun _ _ hr => hr) fun _ _ ⟨⟨hf, hs⟩, hi⟩ => ⟨hf, hs, hi⟩
  append u h := ((k.append u h.1).both (st.append u h.2)).mono
    (fun _ _ hr => hr) fun _ _ ⟨⟨hf, hs⟩, hi⟩ => ⟨hf, hs, hi⟩
  truncate h := ((k.truncate h.1).both (st.truncate _ h.2)).mono
    (fun _ _ hr => hr) fun _ _ ⟨⟨hf, hs⟩, hi⟩ => ⟨hf, hs, hi⟩
  readLineAt hc h := ((k.readLineAt hc h.1).both (st.readLineAt _ h.2)).mono
    (fun _ _ ⟨⟨ht, hs⟩, hi⟩ => ⟨ht, hs, hi⟩) fun _ _ ⟨⟨hf, hs⟩, hi⟩ => ⟨hf, hs, hi⟩

namespace Buffer

variable {σ ε α β : Type} {I : σ → Prop}

/-- However an action ends, the store of the buffer has `I` if it had it before. -/
def Preserves (I : σ → Prop) (act : EStateM ε (Buffer σ) α) : Prop :=
  ∀ b : Buffer σ, I b.store → Ends act b (fun _ b => I b.store) fun _ b => I b.store

namespace Preserves

theorem pure (a : α) : Preserves I (Pure.pure a : EStateM ε (Buffer σ) α) := fun _ h => h

theorem update {f : Buffer σ → Buffer σ} (hf : ∀ b, (f b).store = b.store) :
    Preserves I (modify f : EStateM ε (Buffer σ) PUnit) := by
  intro b h
  show I (f b).store
  rwa [hf b]

theorem bind {x : EStateM ε (Buffer σ) α} {f : α → EStateM ε (Buffer σ) β} (hx : Preserves I x)
    (hf : ∀ a, Preserves I (f a)) : Preserves I (x >>= f) :=
  fun b h => (hx b h).bind (fun a _ h => hf a _ h) fun _ _ h => h

theorem get_bind {f : Buffer σ → EStateM ε (Buffer σ) β} (hf : ∀ b, Preserves I (f b)) :
    Preserves I (get >>= f) := fun b h => hf b b h

theorem map {x : EStateM ε (Buffer σ) α} (hx : Preserves I x) (f : α → β) :
    Preserves I (f <$> x) :=
  fun b h => (hx b h).map fun _ _ h => h

theorem onStore {operation : StoreOperation} {act : EStateM IoError σ α}
    (h : ∀ {s}, I s → Ends act s (fun _ s => I s) fun _ s => I s) :
    Preserves I (Buffer.onStore operation act) :=
  fun _ hb => (onStore_ends (h hb)).mono (fun _ _ hr => hr.1) fun _ _ he => he.2.1

end Preserves

@[simp] theorem setCursor_store (line : Nat) (b : Buffer σ) : (b.setCursor line).store = b.store := by
  unfold setCursor
  split <;> rfl

@[simp] theorem aim_store (arg : Option LineArg) (b : Buffer σ) :
    (Statement.aim arg b).store = b.store := by
  unfold Statement.aim
  split
  · exact setCursor_store _ b
  · rfl

section Calls

variable [TextStore σ] (st : Stable I)
include st

theorem rescan_preserves : Preserves I (rescan : Action σ Unit) :=
  (Preserves.onStore st.load).bind fun _ => .update fun _ => rfl

theorem contents_preserves : Preserves I (contents : Action σ Text) := .onStore st.load

theorem settled_preserves {edit : Action σ α} (h : Preserves I edit) : Preserves I (settled edit) :=
  h.bind fun a => (rescan_preserves st).bind fun _ => .pure a

theorem changed_preserves {edit : Text → Action σ α} (h : ∀ t, Preserves I (edit t)) :
    Preserves I (changed edit) :=
  (contents_preserves st).bind fun t => settled_preserves st (h t)

theorem reset_preserves (t : Text) : Preserves I (reset t : Action σ Unit) := by
  rw [reset_eq]
  exact settled_preserves st (.onStore (st.replace t))

theorem append_preserves (t : Text) : Preserves I (append t : Action σ Unit) := by
  rw [append_eq]
  exact settled_preserves st ((Preserves.onStore (st.append t)).bind fun _ => .update fun _ => rfl)

theorem write_preserves (t : Text) : Preserves I (write t : Action σ Unit) := by
  rw [write_eq]
  refine changed_preserves st fun old => .get_bind fun b => ?_
  exact (Preserves.onStore (st.replace _)).bind fun _ => .update fun _ => rfl

theorem eraseThrough_preserves (ch : Char) : Preserves I (eraseThrough ch : Action σ Bool) := by
  rw [eraseThrough_eq]
  refine changed_preserves st fun old => ?_
  unfold cutFrom
  split
  · exact (Preserves.onStore (st.truncate _)).bind fun _ => .pure true
  · exact .pure false

theorem deleteLines_preserves (start size : Nat) :
    Preserves I (deleteLines start size : Action σ Unit) := by
  by_cases hs : start = 0
  · subst hs
    exact .pure ()
  · rw [deleteLines_eq (Nat.pos_of_ne_zero hs)]
    refine changed_preserves st fun old => ?_
    unfold removeFrom
    split
    · exact .onStore (st.replace _)
    · exact .pure ()

theorem reseal_preserves : Preserves I (reseal : Action σ Unit) :=
  .get_bind fun b => (eraseThrough_preserves st closingBrace).bind fun _ =>
    (append_preserves st closingLine).bind fun _ => .update fun b' => setCursor_store b.cursor b'

theorem line_preserves (n : Nat) : Preserves I (line n : Action σ Text) := by
  intro b h
  unfold Ends line
  cases b.index.offset? n with
  | none => exact h
  | some offset => exact (Preserves.onStore (st.readLineAt offset)).map Text.dropFeed b h

theorem lastLine_preserves : Preserves I (lastLine : Action σ Text) := by
  refine .get_bind fun b => (line_preserves st _).bind fun last => ?_
  split
  · exact line_preserves st _
  · exact .pure last

theorem runDelete_preserves (arg : Option LineArg) :
    Preserves I (Statement.runDelete arg : Action σ Unit) := by
  refine .get_bind fun b => (deleteLines_preserves st _ _).bind fun _ => ?_
  refine (Preserves.update fun _ => setCursor_store _ _).bind fun _ => ?_
  refine (lastLine_preserves st).bind fun last => ?_
  split
  · exact .pure ()
  · exact reseal_preserves st

theorem run_preserves (skeleton : Text) (s : Statement) :
    Preserves I (s.run skeleton : Action σ LineRepl.Action) := by
  unfold Statement.run
  cases s.command with
  | delete => exact (runDelete_preserves st s.arg).bind fun _ => .pure _
  | goto => exact .bind (.update (aim_store s.arg)) fun _ => .pure _
  | insert => exact .bind (.update fun b => aim_store s.arg b) fun _ => .pure _
  | replace => exact .bind (.update fun b => aim_store s.arg b) fun _ => .pure _
  | reset => exact (reset_preserves st skeleton).bind fun _ => .pure _
  | print => exact ((contents_preserves st).map _).map _
  | clearScreen => exact .pure _
  | help => exact .pure _
  | quit => exact .pure _

/-- Whatever line is submitted, what the store calls keep is kept. -/
theorem runLine_preserves (skeleton line : Text) :
    Preserves I (runLine skeleton line : EStateM DispatchError (Buffer σ) LineRepl.Action) := by
  cases hs : Statement.isStatement line with
  | false =>
    rw [runLine_text hs]
    exact .pure _
  | true =>
    cases hp : Statement.parse line with
    | error e =>
      intro b h
      rw [Ends, runLine_error hs hp b]
      exact h
    | ok s =>
      rw [runLine_statement hs hp]
      exact fun b h => (run_preserves st skeleton s b h).adaptExcept

end Calls
end Buffer
end LineRepl
