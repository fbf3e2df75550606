import LineRepl.Proofs.BufferSteps
import LineRepl.Proofs.FileLaws

/-! Changes that stop. A change of a buffer is one edit of its store, with a scan after it and for
some a load before it. When a call of the store fails and leaves the store alone, nothing has been
done or the edit has been done as a whole, and then cursor and mode are those that go with it, though
the index is still the old one. This holds whatever the buffer was before, and also of bytes that are
no text. -/
namespace LineRepl

open Attempt

/-- The bytes that are stored, the line of the cursor, and how the next write lands. -/
structure Sheet where
  data : Bytes
  cursor : Nat
  mode : WriteMode

/-- A page as it is stored. -/
def Page.sheet (p : Page) : Sheet := ⟨p.text.utf8, p.cursor, p.mode⟩

/-- The page that is stored, if the bytes are text. -/
def Sheet.page? (s : Sheet) : Option Page := s.data.text?.map fun t => ⟨t, s.cursor, s.mode⟩

/-! ## Stores of bytes -/

/-- The laws of a store by its bytes, text or not. A call has the effect that its name says, or it
fails and leaves the bytes as they were. -/
structure KeepsBytes {σ : Type} [TextStore σ] (holds : σ → Bytes → Prop) : Prop where
  load {s : σ} {data : Bytes} : holds s data →
    Ends TextStore.load s (fun t s => t.utf8 = data ∧ holds s data) fun _ s => holds s data
  replace {s : σ} {data : Bytes} (u : Text) : holds s data →
    Ends (TextStore.replace u) s (fun _ s => holds s u.utf8) fun _ s => holds s data
  append {s : σ} {data : Bytes} (u : Text) : holds s data →
    Ends (TextStore.append u) s (fun _ s => holds s (data ++ u.utf8)) fun _ s => holds s data
  truncate {s : σ} {t u : Text} : holds s (t ++ u).utf8 →
    Ends (TextStore.truncate t.byteSize) s (fun _ s => holds s t.utf8)
      fun _ s => holds s (t ++ u).utf8
  readLineAt {s : σ} {t u : Text} : t.Complete → holds s (t ++ u).utf8 →
    Ends (TextStore.readLineAt t.byteSize) s
      (fun r s => r = u.firstPiece ∧ holds s (t ++ u).utf8) fun _ s => holds s (t ++ u).utf8

/-- As long as the bytes are text, the store is one of text, and any call of it may fail. -/
theorem KeepsBytes.keeps {σ : Type} [TextStore σ] {holds : σ → Bytes → Prop}
    (k : KeepsBytes holds) : Keeps (fun _ => True) fun s t => holds s t.utf8 where
  load h := (k.load h).mono (fun _ _ h => ⟨Text.utf8_injective h.1, h.2⟩) fun _ _ h => ⟨trivial, h⟩
  replace u h := (k.replace u h).mono (fun _ _ h => h) fun _ _ h => ⟨trivial, h⟩
  append u h := (k.append u h).mono (fun _ _ h => by rwa [Text.utf8_append])
    fun _ _ h => ⟨trivial, h⟩
  truncate h := (k.truncate h).mono (fun _ _ h => h) fun _ _ h => ⟨trivial, h⟩
  readLineAt ht h := (k.readLineAt ht h).mono (fun _ _ h => h) fun _ _ h => ⟨trivial, h⟩

/-- A file that is there keeps its bytes. -/
theorem FileStore.keepsBytes (path : Path) : KeepsBytes (HoldsBytes path) where
  load {s data} h := by
    show Ends load s _ _
    obtain ⟨rfl, hb⟩ := id h
    unfold Ends load
    cases ht : data.text? with
    | some t =>
      simp only [hb, ht]
      exact ⟨Text.utf8_of_text? ht, h⟩
    | none =>
      simp only [hb, ht]
      exact h
  replace u h := onTree_ends h.1 (h.1 ▸ FileTree.modifyFile_of_bytesOf h.2 fun _ => u.utf8)
  append u h := onTree_ends h.1 (h.1 ▸ FileTree.modifyFile_of_bytesOf h.2 (· ++ u.utf8))
  truncate h := (truncate_ends h).mono (fun _ _ h => h) fun _ _ h => h.2
  readLineAt _ h := (readLineAt_ends h).mono (fun _ _ h => h) fun _ _ h => h.2

/-- By any schedule, a call fails without a trace or does what it does. -/
theorem FaultyStore.keepsBytes {σ : Type} [TextStore σ] {holds : σ → Bytes → Prop}
    (k : KeepsBytes holds) : KeepsBytes fun (s : FaultyStore σ) data => holds s.inner data where
  load h := attempt_leaves (k.load h) h
  replace u h := attempt_leaves (k.replace u h) h
  append u h := attempt_leaves (k.append u h) h
  truncate h := attempt_leaves (k.truncate h) h
  readLineAt ht h := attempt_leaves (k.readLineAt ht h) h

/-! ## Changes -/

namespace Buffer

/-- The steps that are one change of the text. -/
def Step.Changes : Step → Prop
  | write _ | append _ | reset _ | deleteLines .. | eraseThrough _ => True
  | _ => False

/-- What a change lays down, before the cursor is put back into range. What has to be read first has
to be text. -/
def Step.outcome : Step → Sheet → Option Sheet
  | append t, s => some { s with data := s.data ++ t.utf8, cursor := s.cursor + 1 }
  | reset t, s => some { s with data := t.utf8 }
  | write t, s => s.page?.map fun p => (p.written t).sheet
  | eraseThrough ch, s => s.page?.map fun p => (p.erased ch).sheet
  | deleteLines 0 _, s => some s
  | deleteLines start size, s => s.page?.map fun p => (p.without start size).sheet
  | _, _ => none

/-- What a change does before its scan: it may have to read the text, and then it edits the store. -/
def Step.calls : Step → List StoreOperation
  | write _ => [.read, .write]
  | append _ => [.append]
  | reset _ => [.reset]
  | deleteLines .. => [.read, .delete]
  | eraseThrough _ => [.read, .truncate]
  | _ => []

theorem Step.scan_not_mem_calls (s : Step) : .scan ∉ s.calls := by
  cases s <;> simp [calls]

variable {σ α β : Type}

/-- A buffer has what is on a sheet, whatever its index says. -/
structure Carries (holds : σ → Bytes → Prop) (b : Buffer σ) (s : Sheet) : Prop where
  held : holds b.store s.data
  cursor : b.cursor = s.cursor
  mode : b.mode = s.mode

/-- How a change stops that would make `after?` of `before`. -/
inductive Stopped (holds : σ → Bytes → Prop) (b : Buffer σ) (before : Sheet)
    (after? : Option Sheet) (e : BufferError) (b' : Buffer σ) : Prop
  /-- Nothing was done. -/
  | early : e.operation ≠ .scan → b'.index = b.index → Carries holds b' before →
      Stopped holds b before after? e b'
  /-- All was done but the scan. -/
  | late {after : Sheet} : e.operation = .scan → after? = some after → b'.index = b.index →
      Carries holds b' after → Stopped holds b before after? e b'

/-- An action makes `after?` of `before`, or it stops. -/
def Makes (holds : σ → Bytes → Prop) (act : Action σ α) (b : Buffer σ) (before : Sheet)
    (after? : Option Sheet) : Prop :=
  Ends act b (fun _ b' => ∃ after, after? = some after ∧ holds b'.store after.data)
    (Stopped holds b before after?)

/-- If an action fails, then in one of these operations. -/
def FailsIn (operations : List StoreOperation) (act : Action σ α) : Prop :=
  ∀ b, Ends act b (fun _ _ => True) fun e _ => e.operation ∈ operations

section Operations

variable {operations : List StoreOperation}

theorem FailsIn.onStore {operation : StoreOperation} (h : operation ∈ operations)
    (act : EStateM IoError σ α) : FailsIn operations (Buffer.onStore operation act) := by
  intro b
  refine (onStore_ends Ends.any).mono (fun _ _ _ => trivial) ?_
  intro e b' he
  rwa [he.1]

theorem FailsIn.bind {x : Action σ α} {f : α → Action σ β} (hx : FailsIn operations x)
    (hf : ∀ a, FailsIn operations (f a)) : FailsIn operations (x >>= f) :=
  fun b => (hx b).bind (fun a b' _ => hf a b') fun _ _ h => h

theorem FailsIn.pure (a : α) : FailsIn operations (Pure.pure a : Action σ α) := fun _ => trivial

theorem FailsIn.modify (f : Buffer σ → Buffer σ) :
    FailsIn operations (modify f : Action σ PUnit) := fun _ => trivial

variable [TextStore σ]

theorem settled_failsIn (hs : .scan ∈ operations) {edit : Action σ α} (h : FailsIn operations edit) :
    FailsIn operations (settled edit) :=
  h.bind fun a => ((FailsIn.onStore hs _).bind fun _ => .modify _).bind fun _ => .pure a

theorem changed_failsIn (hr : .read ∈ operations) (hs : .scan ∈ operations)
    {edit : Text → Action σ α} (h : ∀ t, FailsIn operations (edit t)) :
    FailsIn operations (changed edit) :=
  (FailsIn.onStore hr _).bind fun t => settled_failsIn hs (h t)

theorem change_failsIn {s : Step} (hs : s.Changes) :
    FailsIn (σ := σ) (.scan :: s.calls) s.run := by
  have scan : .scan ∈ StoreOperation.scan :: s.calls := List.mem_cons_self
  cases s with
  | write t =>
    show FailsIn _ (write t)
    rw [write_eq]
    refine changed_failsIn (by simp [Step.calls]) scan fun old b => ?_
    -- What is taken from the buffer first is taken without a call.
    exact ((FailsIn.onStore (by simp [Step.calls]) _).bind fun _ => .modify _) b
  | append t =>
    show FailsIn _ (append t)
    rw [append_eq]
    exact settled_failsIn scan ((FailsIn.onStore (by simp [Step.calls]) _).bind fun _ => .modify _)
  | reset t =>
    show FailsIn _ (reset t)
    rw [reset_eq]
    exact settled_failsIn scan (.onStore (by simp [Step.calls]) _)
  | deleteLines start size =>
    cases start with
    | zero => exact fun _ => trivial
    | succ n =>
      show FailsIn _ (deleteLines (n + 1) size)
      rw [deleteLines_eq n.succ_pos]
      refine changed_failsIn (by simp [Step.calls]) scan fun old => ?_
      unfold removeFrom
      split
      · exact .onStore (by simp [Step.calls]) _
      · exact .pure _
  | eraseThrough ch =>
    have h : FailsIn (σ := σ) (.scan :: Step.calls (.eraseThrough ch)) (Buffer.eraseThrough ch) := by
      rw [eraseThrough_eq]
      refine changed_failsIn (by simp [Step.calls]) scan fun old => ?_
      unfold cutFrom
      split
      · exact (FailsIn.onStore (by simp [Step.calls]) _).bind fun _ => .pure _
      · exact .pure _
    exact h.bind fun _ => .pure _
  | _ => exact hs.elim

end Operations

variable [TextStore σ] {holds : σ → Bytes → Prop} {b b₀ : Buffer σ} {before after : Sheet}

omit [TextStore σ] in
theorem onStore_carries {operation : StoreOperation} {act : EStateM IoError σ α}
    {ok : α → σ → Prop} (h : Carries holds b before)
    (ha : Ends act b.store ok fun _ s => holds s before.data) :
    Ends (onStore operation act) b
      (fun a b' => ok a b'.store ∧ b' = { b with store := b'.store })
      (fun e b' => e.operation = operation ∧ Carries holds b' before ∧ b'.index = b.index) := by
  refine (onStore_ends ha).mono (fun _ _ => id) ?_
  intro e b' he
  obtain ⟨he, hs, hb⟩ := he
  rw [hb]
  exact ⟨he, ⟨hs, h.cursor, h.mode⟩, rfl⟩

omit [TextStore σ] in
/-- A page that a change halts on is a sheet that it stops on. -/
theorem stopped_of_halted {fails : Text → Prop} {p q : Page} {e : BufferError} {b' : Buffer σ}
    (h : Halted fails (fun s t => holds s t.utf8) b p q e b') :
    Stopped holds b p.sheet (some q.sheet) e b' := by
  have hr := h.reads
  by_cases he : e.operation = .scan
  · rw [if_pos he] at hr
    exact .late he rfl h.index ⟨hr.held, hr.cursor, hr.mode⟩
  · rw [if_neg he] at hr
    exact .early he h.index ⟨hr.held, hr.cursor, hr.mode⟩

section Laws

variable (k : KeepsBytes holds)
include k

theorem rescan_makes (h : Carries holds b after) (hi : b.index = b₀.index) :
    Ends rescan b (fun _ b' => holds b'.store after.data)
      (Stopped holds b₀ before (some after)) := by
  refine (onStore_carries h (k.load h.held)).bind ?_ ?_
  · intro t b₁ h₁
    exact h₁.1.2
  · intro e b₁ he
    obtain ⟨he, h₁, hi₁⟩ := he
    exact .late he rfl (hi₁.trans hi) h₁

/-- An edit of any bytes with a scan after it. -/
theorem settled_makes {edit : Action σ α}
    (he : Ends edit b (fun _ b' => Carries holds b' after ∧ b'.index = b.index)
      (fun e b' => e.operation ≠ .scan ∧ Carries holds b' before ∧ b'.index = b.index)) :
    Makes holds (settled edit) b before (some after) := by
  refine he.bind ?_ ?_
  · intro a b₁ h₁
    exact (rescan_makes k h₁.1 h₁.2).bind (fun _ _ h => ⟨after, rfl, h⟩) fun _ _ => id
  · intro e b₁ h₁
    exact .early h₁.1 h₁.2.2 h₁.2.1

theorem reset_makes (h : Carries holds b before) (t : Text) :
    Makes holds (reset t) b before (some { before with data := t.utf8 }) := by
  rw [reset_eq]
  refine settled_makes k ((onStore_carries h (k.replace t h.held)).mono ?_ ?_)
  · intro _ b₁ h₁
    obtain ⟨hs, hb⟩ := h₁
    rw [hb]
    exact ⟨⟨hs, h.cursor, h.mode⟩, rfl⟩
  · intro e b₁ he
    exact ⟨he.1 ▸ by decide, he.2⟩

theorem append_makes (h : Carries holds b before) (t : Text) :
    Makes holds (append t) b before
      (some { before with data := before.data ++ t.utf8, cursor := before.cursor + 1 }) := by
  rw [append_eq]
  refine settled_makes k ((onStore_carries h (k.append t h.held)).bind ?_ ?_)
  · intro _ b₁ h₁
    obtain ⟨hs, hb⟩ := h₁
    rw [hb]
    exact ⟨⟨hs, congrArg (· + 1) h.cursor, h.mode⟩, rfl⟩
  · intro e b₁ he
    exact ⟨he.1 ▸ by decide, he.2⟩

/-- An edit of the text that is read first. Bytes that are no text cannot be read, so that there is
no such edit of them. -/
theorem changed_makes {act : Action σ α} {edit : Text → Action σ α} {value : Page → α}
    {draft : Page → Page} (ha : act = changed edit)
    (hd : Drafts (fun _ => True) (fun s t => holds s t.utf8) act value draft)
    (h : Carries holds b before) :
    Makes holds act b before (before.page?.map fun p => (draft p).sheet) := by
  obtain ⟨data, cursor, mode⟩ := before
  cases ht : data.text? with
  | some t =>
    obtain rfl := Text.utf8_of_text? ht
    have hr : Reads (fun s t => holds s t.utf8) b ⟨t, cursor, mode⟩ := ⟨h.held, h.cursor, h.mode⟩
    simp only [Sheet.page?, ht, Option.map_some]
    exact (hd hr).mono (fun _ b' hb => ⟨_, rfl, hb.2.held⟩) fun _ _ => stopped_of_halted
  | none =>
    simp only [Sheet.page?, ht, Option.map_none]
    rw [ha]
    refine (onStore_carries h (k.load h.held)).bind ?_ ?_
    · intro t b₁ h₁
      have hu : t.utf8 = data := h₁.1.1
      rw [← hu, Text.text?_utf8] at ht
      cases ht
    · intro e b₁ he
      exact .early (he.1 ▸ by decide) he.2.2 he.2.1

theorem change_makes {s : Step} (hs : s.Changes) (h : Carries holds b before) :
    Makes holds s.run b before (s.outcome before) := by
  cases s with
  | write t => exact changed_makes k (write_eq t) (write_drafts k.keeps t) h
  | append t => exact append_makes k h t
  | reset t => exact reset_makes k h t
  | deleteLines start size =>
    cases start with
    | zero => exact ⟨before, rfl, h.held⟩
    | succ n =>
      exact changed_makes k (deleteLines_eq n.succ_pos size)
        (deleteLines_drafts k.keeps n.succ_pos size) h
  | eraseThrough ch =>
    have hm := changed_makes k (eraseThrough_eq ch) (eraseThrough_drafts k.keeps ch) h
    exact Ends.bind hm (fun _ _ hb => hb) fun _ _ => id
  | _ => exact hs.elim

end Laws

/-- **A change that fails has done nothing, or all but the scan.** When it could not read the text or
its edit was refused, the buffer is as it was. When only the scan failed, the store has what the change
leaves when it succeeds, the cursor and the mode are those that go with it, and the index is the old
one. Nothing is asked of the index, the cursor and the stored bytes before, nor of when calls fail. -/
theorem failed_change_whole (k : KeepsBytes holds) {s : Step} (hs : s.Changes)
    (h : Carries holds b before) :
    (∀ e b', s.run b = .error e b' → b'.index = b.index ∧
      (e.operation ∈ s.calls ∧ Carries holds b' before ∨
        e.operation = .scan ∧ ∃ after, s.outcome before = some after ∧ Carries holds b' after)) ∧
    (∀ b', s.run b = .ok () b' →
      ∃ after, s.outcome before = some after ∧ holds b'.store after.data) := by
  have hm := change_makes k hs h
  constructor
  · intro e b' hr
    have hf := List.mem_cons.mp ((change_failsIn hs b).error_of hr)
    cases hm.error_of hr with
    | early he hi hc => exact ⟨hi, .inl ⟨hf.resolve_left he, hc⟩⟩
    | late he ho hi hc => exact ⟨hi, .inr ⟨he, _, ho, hc⟩⟩
  · intro b' hr
    exact hm.ok_of hr

/-- A buffer whose index and cursor are of another text, over a file that can be loaded once. -/
def loadedOnce (data : Bytes) (cursor : Nat) : Buffer (FaultyStore FileStore) where
  store :=
    { inner := ⟨⟨[], [([['f']], .file data false)]⟩, "f"⟩
      schedule := fun call n => if call = .load ∧ 1 ≤ n then some .notUtf8 else none }
  index := ⟨[1, 40]⟩
  cursor := cursor
  mode := .replace

/-- Writing over the last line and past it, and behind the end, and appending to a byte that is no
text. Each time the scan fails. -/
theorem failed_change_whole_unscanned :
    let holds := fun (s : FaultyStore FileStore) data => FileStore.HoldsBytes "f" s.inner data
    (∃ e b', Step.run (.write "x\ny".toList) (loadedOnce (Text.utf8 "é\nb".toList) 2) = .error e b' ∧
      b'.index = ⟨[1, 40]⟩ ∧ Carries holds b' ⟨Text.utf8 "é\nx\ny".toList, 3, .insert⟩) ∧
    (∃ e b', Step.run (.write "x\ny".toList) (loadedOnce (Text.utf8 "é\nb\n".toList) 77) =
        .error e b' ∧
      b'.index = ⟨[1, 40]⟩ ∧ Carries holds b' ⟨Text.utf8 "é\nb\nx\ny".toList, 4, .insert⟩) ∧
    ∃ e b', Step.run (.append "x".toList) (loadedOnce [0xFF] 77) = .error e b' ∧
      b'.index = ⟨[1, 40]⟩ ∧ Carries holds b' ⟨[0xFF, 0x78], 78, .replace⟩ := by
  intro holds
  have k : KeepsBytes holds := FaultyStore.keepsBytes (FileStore.keepsBytes "f")
  have stop {s : Step} {data : Bytes} {cursor : Nat} {after : Sheet} (hs : s.Changes)
      (ho : s.outcome ⟨data, cursor, .replace⟩ = some after)
      (hr : ∃ e b', s.run (loadedOnce data cursor) = .error e b' ∧ e.operation = .scan) :
      ∃ e b', s.run (loadedOnce data cursor) = .error e b' ∧ b'.index = ⟨[1, 40]⟩ ∧
        Carries holds b' after := by
    have h : Carries holds (loadedOnce data cursor) ⟨data, cursor, .replace⟩ :=
      ⟨⟨rfl, rfl⟩, rfl, rfl⟩
    obtain ⟨e, b', hr, he⟩ := hr
    obtain ⟨hi, ⟨hn, -⟩ | ⟨-, after', ho', hc⟩⟩ := (failed_change_whole k hs h).1 e b' hr
    · exact absurd (he ▸ hn) s.scan_not_mem_calls
    · rw [ho] at ho'
      cases ho'
      exact ⟨e, b', hr, hi, hc⟩
  exact ⟨stop trivial rfl ⟨_, _, rfl, rfl⟩, stop trivial rfl ⟨_, _, rfl, rfl⟩,
    stop trivial rfl ⟨_, _, rfl, rfl⟩⟩

end Buffer
end LineRepl
