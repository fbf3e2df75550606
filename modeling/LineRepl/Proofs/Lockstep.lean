import LineRepl.Proofs.StoreAgreement
import LineRepl.Proofs.StoreInvariants

/-! Two buffers in lockstep. A buffer sees of its store what the five calls tell it. So when these
tell the same of two stores and leave them so, whatever is done to two buffers over them comes to the
same results and leaves the buffers alike, errors included. Nothing is asked of the stores but this,
not even that they keep what they are told. -/
namespace LineRepl

namespace Attempt

variable {ε σ τ α β : Type}

/-- The value or the error in which an action ended. -/
def value : EStateM.Result ε σ α → Except ε α
  | .ok a _ => .ok a
  | .error e _ => .error e

/-- Two actions ended in the same value or the same error, and the states that they left are
related. -/
structure Together (rel : σ → τ → Prop) (r : EStateM.Result ε σ α) (q : EStateM.Result ε τ α) :
    Prop where
  value : value r = value q
  final : rel (final r) (final q)

/-- From related states two actions end together. -/
def Jointly (before after : σ → τ → Prop) (x : EStateM ε σ α) (y : EStateM ε τ α) : Prop :=
  ∀ ⦃s : σ⦄ ⦃t : τ⦄, before s t → Together after (x s) (y t)

variable {before after rel : σ → τ → Prop}

theorem Together.cases {r : EStateM.Result ε σ α} {q : EStateM.Result ε τ α}
    (h : Together rel r q) :
    (∃ a s t, r = .ok a s ∧ q = .ok a t ∧ rel s t) ∨
      ∃ e s t, r = .error e s ∧ q = .error e t ∧ rel s t := by
  obtain ⟨hv, hf⟩ := h
  cases r with
  | ok a s =>
    cases q with
    | ok a' t =>
      obtain rfl := Except.ok.inj hv
      exact .inl ⟨a, s, t, rfl, rfl, hf⟩
    | error e t => cases hv
  | error e s =>
    cases q with
    | ok a t => cases hv
    | error e' t =>
      obtain rfl := Except.error.inj hv
      exact .inr ⟨e, s, t, rfl, rfl, hf⟩

theorem Together.bind {x : EStateM ε σ α} {y : EStateM ε τ α} {f : α → EStateM ε σ β}
    {g : α → EStateM ε τ β} {s : σ} {t : τ} (hx : Together rel (x s) (y t))
    (hf : ∀ a, Jointly rel rel (f a) (g a)) : Together rel ((x >>= f) s) ((y >>= g) t) := by
  rw [bind_apply, bind_apply]
  obtain ⟨a, s', t', hr, hq, h'⟩ | ⟨e, s', t', hr, hq, h'⟩ := hx.cases
  · rw [hr, hq]
    exact hf a h'
  · rw [hr, hq]
    exact ⟨rfl, h'⟩

theorem Together.map {x : EStateM ε σ α} {y : EStateM ε τ α} {s : σ} {t : τ}
    (hx : Together rel (x s) (y t)) (f : α → β) : Together rel ((f <$> x) s) ((f <$> y) t) := by
  rw [map_apply, map_apply]
  obtain ⟨a, s', t', hr, hq, h'⟩ | ⟨e, s', t', hr, hq, h'⟩ := hx.cases
  · rw [hr, hq]
    exact ⟨rfl, h'⟩
  · rw [hr, hq]
    exact ⟨rfl, h'⟩

namespace Jointly

theorem pure (a : α) : Jointly rel rel (Pure.pure a : EStateM ε σ α) (Pure.pure a) :=
  fun _ _ h => ⟨rfl, h⟩

theorem bind {x : EStateM ε σ α} {y : EStateM ε τ α} {f : α → EStateM ε σ β}
    {g : α → EStateM ε τ β} (hx : Jointly before rel x y)
    (hf : ∀ a, Jointly rel rel (f a) (g a)) : Jointly before rel (x >>= f) (y >>= g) :=
  fun _ _ h => (hx h).bind hf

theorem map {x : EStateM ε σ α} {y : EStateM ε τ α} (hx : Jointly before rel x y) (f : α → β) :
    Jointly before rel (f <$> x) (f <$> y) := fun _ _ h => (hx h).map f

theorem get_bind {f : σ → EStateM ε σ α} {g : τ → EStateM ε τ α}
    (h : ∀ s t, before s t → Jointly before after (f s) (g t)) :
    Jointly before after (get >>= f) (get >>= g) := fun s t hst => h s t hst hst

theorem update {f : σ → σ} {g : τ → τ} (h : ∀ s t, before s t → after (f s) (g t)) :
    Jointly before after (modify f : EStateM ε σ PUnit) (modify g) :=
  fun s t hst => ⟨rfl, h s t hst⟩

end Jointly
end Attempt

open Attempt

/-- The five calls tell the same of both stores and leave them so. -/
structure CallsAlike {σ τ : Type} [TextStore σ] [TextStore τ] (rel : σ → τ → Prop) : Prop where
  load : Jointly rel rel (TextStore.load : EStateM IoError σ Text) TextStore.load
  replace (t : Text) :
    Jointly rel rel (TextStore.replace t : EStateM IoError σ Unit) (TextStore.replace t)
  append (t : Text) :
    Jointly rel rel (TextStore.append t : EStateM IoError σ Unit) (TextStore.append t)
  truncate (size : Nat) :
    Jointly rel rel (TextStore.truncate size : EStateM IoError σ Unit) (TextStore.truncate size)
  readLineAt (offset : Nat) :
    Jointly rel rel (TextStore.readLineAt offset : EStateM IoError σ Text)
      (TextStore.readLineAt offset)

namespace Buffer

/-- Two buffers that differ in their stores only, and these are related. -/
structure Pairs {σ τ : Type} (rel : σ → τ → Prop) (b : Buffer σ) (c : Buffer τ) : Prop where
  store : rel b.store c.store
  index : b.index = c.index
  cursor : b.cursor = c.cursor
  mode : b.mode = c.mode

variable {σ τ α : Type} {before after rel : σ → τ → Prop} {b : Buffer σ} {c : Buffer τ}

theorem Pairs.lineCount (h : Pairs rel b c) : b.lineCount = c.lineCount :=
  congrArg LineIndex.lineCount h.index

theorem Pairs.setCursor (h : Pairs rel b c) (line : Nat) :
    Pairs rel (b.setCursor line) (c.setCursor line) := by
  rw [Buffer.setCursor, Buffer.setCursor, h.lineCount]
  by_cases hl : 1 ≤ line ∧ line < c.lineCount
  · rw [if_pos hl, if_pos hl]
    exact ⟨h.store, h.index, rfl, h.mode⟩
  · rw [if_neg hl, if_neg hl]
    exact h

theorem Pairs.setMode (h : Pairs rel b c) (mode : WriteMode) :
    Pairs rel (b.setMode mode) (c.setMode mode) := ⟨h.store, h.index, h.cursor, rfl⟩

theorem Pairs.aim (h : Pairs rel b c) (arg : Option LineArg) :
    Pairs rel (Statement.aim arg b) (Statement.aim arg c) := by
  rcases arg with _ | n | _
  · exact h
  · exact h.setCursor n
  · exact h

theorem onStore_jointly {x : EStateM IoError σ α} {y : EStateM IoError τ α}
    (h : Jointly before after x y) (operation : StoreOperation) :
    Jointly (Pairs before) (Pairs after) (onStore operation x) (onStore operation y) := by
  intro b c hb
  rw [onStore_apply, onStore_apply]
  obtain ⟨a, s, t, hr, hq, h'⟩ | ⟨e, s, t, hr, hq, h'⟩ := (h hb.store).cases
  · rw [hr, hq]
    exact ⟨rfl, h', hb.index, hb.cursor, hb.mode⟩
  · rw [hr, hq]
    exact ⟨rfl, h', hb.index, hb.cursor, hb.mode⟩

variable [TextStore σ] [TextStore τ]

/-! ## Changes with a scan after them -/

section Scans

variable (hl : Jointly after after (TextStore.load : EStateM IoError σ Text)
  (TextStore.load : EStateM IoError τ Text))
include hl

theorem contents_jointly :
    Jointly (Pairs after) (Pairs after) (contents : Action σ Text) (contents : Action τ Text) :=
  onStore_jointly hl .read

theorem rescan_jointly :
    Jointly (Pairs after) (Pairs after) (rescan : Action σ Unit) (rescan : Action τ Unit) := by
  refine (onStore_jointly hl .scan).bind fun t => .update fun b c h => ⟨h.store, rfl, ?_, h.mode⟩
  exact congrArg (clamp _) h.cursor

theorem settled_jointly {edit : Action σ α} {edit' : Action τ α}
    (he : Jointly (Pairs before) (Pairs after) edit edit') :
    Jointly (Pairs before) (Pairs after) (settled edit) (settled edit') :=
  he.bind fun a => (rescan_jointly hl).bind fun _ => .pure a

theorem changed_jointly {edit : Text → Action σ α} {edit' : Text → Action τ α}
    (he : ∀ t, Jointly (Pairs after) (Pairs after) (edit t) (edit' t)) :
    Jointly (Pairs after) (Pairs after) (changed edit) (changed edit') :=
  (contents_jointly hl).bind fun t => settled_jointly hl (he t)

end Scans

theorem addText_jointly {t : Text}
    (h : Jointly before after (TextStore.append t : EStateM IoError σ Unit)
      (TextStore.append t : EStateM IoError τ Unit)) :
    Jointly (Pairs before) (Pairs after) (addText t : Action σ Unit) (addText t : Action τ Unit) :=
  (onStore_jointly h .append).bind fun _ => .update fun _ _ h =>
    ⟨h.store, h.index, congrArg (· + 1) h.cursor, h.mode⟩

theorem writeOver_jointly
    (h : ∀ t, Jointly before after (TextStore.replace t : EStateM IoError σ Unit)
      (TextStore.replace t : EStateM IoError τ Unit)) (t old : Text) :
    Jointly (Pairs before) (Pairs after) (writeOver t old : Action σ Unit)
      (writeOver t old : Action τ Unit) := by
  refine .get_bind fun b c hb => ?_
  rw [hb.cursor, hb.mode]
  exact (onStore_jointly (h _) .write).bind fun _ => .update fun _ _ h' =>
    ⟨h'.store, h'.index, rfl, rfl⟩

/-! ## All that is done to a buffer -/

section Calls

variable (k : CallsAlike rel)
include k

theorem reset_jointly (t : Text) :
    Jointly (Pairs rel) (Pairs rel) (reset t : Action σ Unit) (reset t : Action τ Unit) := by
  rw [reset_eq, reset_eq]
  exact settled_jointly k.load (onStore_jointly (k.replace t) .reset)

theorem append_jointly (t : Text) :
    Jointly (Pairs rel) (Pairs rel) (append t : Action σ Unit) (append t : Action τ Unit) := by
  rw [append_eq, append_eq]
  exact settled_jointly k.load (addText_jointly (k.append t))

theorem write_jointly (t : Text) :
    Jointly (Pairs rel) (Pairs rel) (write t : Action σ Unit) (write t : Action τ Unit) := by
  rw [write_eq, write_eq]
  exact changed_jointly k.load (writeOver_jointly k.replace t)

theorem eraseThrough_jointly (ch : Char) :
    Jointly (Pairs rel) (Pairs rel) (eraseThrough ch : Action σ Bool)
      (eraseThrough ch : Action τ Bool) := by
  rw [eraseThrough_eq, eraseThrough_eq]
  refine changed_jointly k.load fun old => ?_
  unfold cutFrom
  split
  · exact (onStore_jointly (k.truncate _) .truncate).bind fun _ => .pure true
  · exact .pure false

theorem deleteLines_jointly (start size : Nat) :
    Jointly (Pairs rel) (Pairs rel) (deleteLines start size : Action σ Unit)
      (deleteLines start size : Action τ Unit) := by
  by_cases hs : start = 0
  · subst hs
    exact .pure ()
  · have hpos := Nat.pos_of_ne_zero hs
    rw [deleteLines_eq hpos, deleteLines_eq hpos]
    refine changed_jointly k.load fun old => ?_
    unfold removeFrom
    split
    · exact onStore_jointly (k.replace _) .delete
    · exact .pure ()

theorem reseal_jointly :
    Jointly (Pairs rel) (Pairs rel) (reseal : Action σ Unit) (reseal : Action τ Unit) := by
  refine .get_bind fun b c hb => ?_
  refine (eraseThrough_jointly k closingBrace).bind fun _ => ?_
  refine (append_jointly k closingLine).bind fun _ => .update fun b' c' h => ?_
  rw [hb.cursor]
  exact h.setCursor _

theorem line_jointly (n : Nat) :
    Jointly (Pairs rel) (Pairs rel) (line n : Action σ Text) (line n : Action τ Text) := by
  intro b c h
  unfold line
  rw [h.index]
  cases c.index.offset? n with
  | none => exact ⟨rfl, h⟩
  | some offset => exact (onStore_jointly (k.readLineAt offset) .read).map Text.dropFeed h

theorem lastLine_jointly :
    Jointly (Pairs rel) (Pairs rel) (lastLine : Action σ Text) (lastLine : Action τ Text) := by
  refine .get_bind fun b c h => ?_
  rw [h.lineCount]
  refine (line_jointly k _).bind fun last => ?_
  split
  · exact line_jointly k _
  · exact .pure last

theorem runDelete_jointly (arg : Option LineArg) :
    Jointly (Pairs rel) (Pairs rel) (Statement.runDelete arg : Action σ Unit)
      (Statement.runDelete arg : Action τ Unit) := by
  refine .get_bind fun b c h => ?_
  rw [h.cursor]
  refine (deleteLines_jointly k _ _).bind fun _ => ?_
  refine (Jointly.update fun _ _ h' => h'.setCursor _).bind fun _ => ?_
  refine (lastLine_jointly k).bind fun last => ?_
  split
  · exact .pure ()
  · exact reseal_jointly k

theorem run_jointly (skeleton : Text) (s : Statement) :
    Jointly (Pairs rel) (Pairs rel) (s.run skeleton : Action σ LineRepl.Action)
      (s.run skeleton : Action τ LineRepl.Action) := by
  unfold Statement.run
  cases s.command with
  | delete => exact (runDelete_jointly k s.arg).bind fun _ => .pure _
  | goto => exact .bind (.update fun _ _ h => h.aim s.arg) fun _ => .pure _
  | insert => exact .bind (.update fun _ _ h => (h.aim s.arg).setMode _) fun _ => .pure _
  | replace => exact .bind (.update fun _ _ h => (h.aim s.arg).setMode _) fun _ => .pure _
  | reset => exact (reset_jointly k skeleton).bind fun _ => .pure _
  | print => exact ((contents_jointly k.load).map _).map _
  | clearScreen => exact .pure _
  | help => exact .pure _
  | quit => exact .pure _

theorem step_jointly (s : Step) :
    Jointly (Pairs rel) (Pairs rel) (s.run : Action σ Unit) (s.run : Action τ Unit) := by
  cases s with
  | write text => exact write_jointly k text
  | append text => exact append_jointly k text
  | reset text => exact reset_jointly k text
  | rescan => exact rescan_jointly k.load
  | setCursor line => exact .update fun _ _ h => h.setCursor line
  | setMode mode => exact .update fun _ _ h => h.setMode mode
  | deleteLines start size => exact deleteLines_jointly k start size
  | eraseThrough ch => exact (eraseThrough_jointly k ch).bind fun _ => .pure ()
  | reseal => exact reseal_jointly k
  | dispatch skeleton s => exact (run_jointly k skeleton s).bind fun _ => .pure ()

/-- Whatever call is made of both. -/
theorem call_jointly (call : Call) :
    Jointly (Pairs rel) (Pairs rel) (call.run : Action σ Answer) (call.run : Action τ Answer) := by
  cases call with
  | step s =>
    cases s with
    | eraseThrough ch => exact (eraseThrough_jointly k ch).map _
    | dispatch skeleton s => exact (run_jointly k skeleton s).map _
    | _ => exact (step_jointly k _).bind fun _ => .pure _
  | line n => exact (line_jointly k n).map _
  | lastLine => exact (lastLine_jointly k).map _
  | contents => exact (contents_jointly k.load).map _
  | listing => exact ((contents_jointly k.load).map _).map _

end Calls
end Buffer
end LineRepl
