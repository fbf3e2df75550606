import LineRepl.Proofs.BufferSteps
import LineRepl.Proofs.FileLaws

/-! A file is as good a store as a text in memory. The two differ where a cut goes past the end or
into a character, and where a line is read from an offset at which none begins. A buffer asks for
neither, so the same calls on two buffers, one over a file and one over the text of that file, go
through with the same answers and leave the same text, index, cursor and mode. -/
namespace LineRepl

open Attempt

/-! ## Guarded stores -/

/-- A store that refuses what stores need not agree on. -/
structure Guarded (σ : Type) where
  inner : σ

namespace Guarded

variable {σ α : Type}

/-- The text ends at the offset or goes on with a whole character. -/
def cuts (size : Nat) (t : Text) : Bool := (t.cutAt size).isSome

/-- A line begins at the offset, or the text ends there. -/
def startsLine (offset : Nat) (t : Text) : Bool :=
  match t.cutAt offset with
  | some (front, rest) => decide front.Complete || rest.isEmpty
  | none => false

def refusal : IoError := ⟨.other, "not an offset of the text"⟩

def pass (act : EStateM IoError σ α) : EStateM IoError (Guarded σ) α :=
  within inner (fun s _ => ⟨s⟩) act

/-- Passes a call on if the text in the store allows it. -/
def check [TextStore σ] (allowed : Text → Bool) (act : EStateM IoError σ α) :
    EStateM IoError (Guarded σ) α := do
  let t ← pass TextStore.load
  if allowed t then pass act else throw refusal

instance [TextStore σ] : TextStore (Guarded σ) where
  load := pass TextStore.load
  replace t := pass (TextStore.replace t)
  append t := pass (TextStore.append t)
  truncate size := check (cuts size) (TextStore.truncate size)
  readLineAt offset := check (startsLine offset) (TextStore.readLineAt offset)

theorem pass_ends {act : EStateM IoError σ α} {g : Guarded σ} {ok : α → σ → Prop}
    {error : IoError → σ → Prop} (h : Ends act g.inner ok error) :
    Ends (pass act) g (fun a g => ok a g.inner) (fun e g => error e g.inner) :=
  h.within_part fun _ => rfl

variable [TextStore σ] {fails : Text → Prop} {holds : σ → Text → Prop}

theorem check_ends (k : Keeps fails holds) {allowed : Text → Bool} {act : EStateM IoError σ α}
    {ok : α → σ → Prop} {g : Guarded σ} {t : Text} (ht : allowed t) (hg : holds g.inner t)
    (h : ∀ s, holds s t → Ends act s ok fun _ s => fails t ∧ holds s t) :
    Ends (check allowed act) g (fun a g => ok a g.inner)
      (fun _ g => fails t ∧ holds g.inner t) := by
  refine (pass_ends (k.load hg)).bind ?_ fun _ _ => id
  intro u g₁ h₁
  obtain ⟨rfl, hg₁⟩ := h₁
  rw [if_pos ht]
  exact pass_ends (h _ hg₁)

theorem cuts_append (t u : Text) : cuts t.byteSize (t ++ u) := by
  rw [cuts, Text.cutAt_append]
  rfl

theorem startsLine_append {t : Text} (h : t.Complete) (u : Text) :
    startsLine t.byteSize (t ++ u) := by
  simp only [startsLine, Text.cutAt_append, h, decide_true, Bool.true_or]

/-- To whom keeps to the offsets of the text, a guarded store is the store behind the guard. -/
theorem keeps (k : Keeps fails holds) : Keeps fails fun (g : Guarded σ) t => holds g.inner t where
  load h := pass_ends (k.load h)
  replace u h := pass_ends (k.replace u h)
  append u h := pass_ends (k.append u h)
  truncate {_ t u} h := check_ends k (cuts_append t u) h fun _ => k.truncate
  readLineAt {_ _ u} ht h := check_ends k (startsLine_append ht u) h fun _ => k.readLineAt ht

end Guarded

namespace Buffer

/-! ## Calls and their answers -/

/-- The calls of a buffer: its steps, and what it tells of its text. -/
inductive Call
  | step (s : Step)
  | line (n : Nat)
  | lastLine
  | contents
  | listing

inductive Answer
  | done
  | erased (any : Bool)
  | request (a : LineRepl.Action)
  | text (t : Text)
  | lines (l : List Text)
  deriving DecidableEq, Repr

section Calls

variable {σ : Type} [TextStore σ]

def Call.run : Call → Action σ Answer
  | step (.eraseThrough ch) => .erased <$> Buffer.eraseThrough ch
  | step (.dispatch skeleton s) => .request <$> s.run skeleton
  | step s => do s.run; pure .done
  | line n => .text <$> Buffer.line n
  | lastLine => .text <$> Buffer.lastLine
  | contents => .text <$> Buffer.contents
  | listing => .lines <$> Buffer.listing

/-- Makes calls one after the other, as long as they succeed. -/
def answers : List Call → Action σ (List Answer)
  | [] => pure []
  | c :: rest => do
    let a ← c.run
    let as ← answers rest
    pure (a :: as)

def opened (skeleton : Option Text) (s : σ) : Except BufferError (Buffer σ) :=
  match skeleton with
  | none => openStore s
  | some t => withSkeleton s t

/-- Opens a buffer over a store, with a skeleton or without one, and makes calls. -/
def work (skeleton : Option Text) (calls : List Call) (s : σ) :
    Except BufferError (List Answer × Buffer σ) :=
  match opened skeleton s with
  | .error e => .error e
  | .ok b => match answers calls b with
    | .ok as b => .ok (as, b)
    | .error e _ => .error e

end Calls

/-! ## Calls on a page -/

namespace Call

/-- What a page answers to a call. -/
def answer : Call → Page → Answer
  | step (.eraseThrough ch), p => .erased (decide (ch ∈ p.text.tail))
  | step (.dispatch _ s), p => .request (p.request s)
  | step _, _ => .done
  | line n, p => .text ((if n = 0 then none else (Text.fields '\n' p.text)[n - 1]?).getD [])
  | lastLine, p => .text p.text.lastPiece.dropFeed
  | contents, p => .text p.text
  | listing, p => .lines p.text.lines

/-- What a call makes of a page. -/
def page : Call → Page → Page
  | step s, p => s.page p
  | _, p => p

theorem page_inRange {p : Page} (h : p.InRange) (c : Call) : (c.page p).InRange := by
  cases c with
  | step s => exact s.page_inRange h
  | _ => exact h

end Call

/-- The page after some calls. -/
def pageAfter (calls : List Call) (p : Page) : Page := calls.foldl (fun p c => c.page p) p

/-- What a page answers to calls that are made one after the other. -/
def told : List Call → Page → List Answer
  | [], _ => []
  | c :: rest, p => c.answer p :: told rest (c.page p)

/-- The page that a new buffer shows. -/
def opening (skeleton : Option Text) (t : Text) : Page :=
  match skeleton with
  | none => ⟨t, 1, .insert⟩
  | some t => ⟨t, max 1 (t.feeds + 1 - 2), .insert⟩

theorem opening_inRange (skeleton : Option Text) (t : Text) : (opening skeleton t).InRange := by
  cases skeleton with
  | none => exact ⟨Nat.le_refl 1, Nat.le_max_left 1 _⟩
  | some u => exact skeleton_inRange u

variable {σ : Type} [TextStore σ] {fails : Text → Prop} {holds : σ → Text → Prop} {b : Buffer σ}
  {p : Page} {s : σ} {t : Text}

omit [TextStore σ] in
/-- What only reads answers from the page and leaves it. -/
theorem reading_ends {β : Type} {act : Action σ β} {value : β} (answer : β → Answer)
    (h : Ends act b (fun r b' => r = value ∧ Shows holds b' p)
      fun _ b' => fails p.text ∧ Shows holds b' p) :
    Ends (answer <$> act) b (fun a b' => a = answer value ∧ Shows holds b' p)
      (fun _ _ => ∃ t, p.Spans p t ∧ fails t) := by
  refine (h.map fun _ _ hr => ⟨congrArg answer hr.1, hr.2⟩).mono (fun _ _ => id) ?_
  exact fun _ _ hf => ⟨p.text, Page.spans_right p p, hf.1⟩

theorem call_ends (k : Keeps fails holds) (h : Shows holds b p) (hp : p.InRange) (c : Call) :
    Ends c.run b (fun a b' => a = c.answer p ∧ Shows holds b' (c.page p))
      (fun _ _ => ∃ t, p.Spans (c.page p) t ∧ fails t) := by
  cases c with
  | step s =>
    cases s with
    | eraseThrough ch =>
      have he := (eraseThrough_drafts k ch h.toReads).mono (fun _ _ => id) fun _ _ hf => hf.spans
      exact he.map fun _ _ hr => ⟨congrArg Answer.erased hr.1, hr.2⟩
    | dispatch skeleton s =>
      exact (run_spans k h hp skeleton s).map fun _ _ hr => ⟨congrArg Answer.request hr.1, hr.2⟩
    | _ => exact (step_ends k h hp _).bind (fun _ _ h₁ => ⟨rfl, h₁⟩) fun _ _ => id
  | line n => exact reading_ends .text (line_ends k.toEdits h n)
  | lastLine => exact reading_ends .text (lastLine_ends k.toEdits h)
  | contents => exact reading_ends .text (contents_ends k h)
  | listing => exact reading_ends .lines (listing_ends k h)

/-- Calls go through and are answered from the page, as long as the store can bear each page that
they come past. -/
theorem answers_shows (k : Keeps fails holds) (h : Shows holds b p) (hp : p.InRange)
    (calls : List Call) (hf : ∀ earlier, earlier <+: calls → Bears fails (pageAfter earlier p)) :
    ∃ b', answers calls b = .ok (told calls p) b' ∧ Shows holds b' (pageAfter calls p) := by
  induction calls generalizing b p with
  | nil => exact ⟨b, rfl, h⟩
  | cons c rest ih =>
    have hnone := hf [] List.nil_prefix
    have hone := hf [c] ⟨rest, rfl⟩
    obtain ⟨a, b₁, hr₁, rfl, h₁⟩ :=
      (call_ends k h hp c).exists_ok fun _ _ ⟨_, hs, ht⟩ => hnone.not_fails hone hs ht
    obtain ⟨b₂, hr₂, h₂⟩ := ih h₁ (c.page_inRange hp) fun earlier he =>
      hf (c :: earlier) (List.prefix_cons_iff.mpr (.inr ⟨earlier, rfl, he⟩))
    refine ⟨b₂, ?_, h₂⟩
    simp only [answers, bind_apply, hr₁, hr₂, told, pure_apply]

theorem work_shows (k : Keeps fails holds) (hs : holds s t) (ht : ¬ fails t)
    (skeleton : Option Text) (calls : List Call)
    (hf : ∀ earlier, earlier <+: calls → Bears fails (pageAfter earlier (opening skeleton t))) :
    ∃ b, work skeleton calls s = .ok (told calls (opening skeleton t), b) ∧
      Shows holds b (pageAfter calls (opening skeleton t)) := by
  have hnone := hf [] List.nil_prefix _ (Nat.le_refl _)
  have hopen : ∃ b, opened skeleton s = .ok b ∧ Shows holds b (opening skeleton t) := by
    cases skeleton with
    | none => exact openStore_shows k hs ht
    | some u => exact withSkeleton_shows k hs ht u hnone
  obtain ⟨b₁, hr₁, h₁⟩ := hopen
  obtain ⟨b₂, hr₂, h₂⟩ := answers_shows k h₁ (opening_inRange skeleton t) calls hf
  refine ⟨b₂, ?_, h₂⟩
  simp only [work, hr₁, hr₂]

/-! ## File and memory -/

/-- Two buffers agree, one over the file at a path and one over a text in memory. -/
structure Agree (path : Path) (f : Buffer FileStore) (m : Buffer MemoryStore) : Prop where
  contents : f.store.Holds path m.store.text
  index : f.index = m.index
  cursor : f.cursor = m.cursor
  mode : f.mode = m.mode

theorem Shows.agree {path : Path} {f : Buffer FileStore} {m : Buffer MemoryStore}
    (hf : Shows (FileStore.Holds path) f p) (hm : Shows MemoryStore.Holds m p) :
    Agree path f m := by
  have ht : m.store.text = p.text := hm.held
  exact ⟨ht ▸ hf.held, hf.index.trans hm.index.symm, hf.cursor.trans hm.cursor.symm,
    hf.mode.trans hm.mode.symm⟩

/-- **A file that is there is as good as its text in memory.** As long as the text is of a size that a
file can have, no call fails on either, the answers are the same, and the buffers agree when they
are done; every beginning of a run is a run, so they agree after each call. Guards before the stores
change nothing, so that no cut is asked for but at a character and none past the end, and no line
but from where one begins. -/
theorem file_agrees_with_memory {tree : FileTree} {path : Path} {t : Text}
    (hfile : tree.bytesOf path = .ok t.utf8) (ht : t.byteSize < FileStore.offsetLimit)
    (skeleton : Option Text) (calls : List Call)
    (hfits : ∀ earlier, earlier <+: calls → ∀ as m,
      work skeleton earlier (MemoryStore.mk t) = .ok (as, m) →
        m.store.text.byteSize < FileStore.offsetLimit) :
    ∃ as f m, work skeleton calls (FileStore.mk tree path) = .ok (as, f) ∧
      work skeleton calls (MemoryStore.mk t) = .ok (as, m) ∧ Agree path f m ∧
      (∃ g, work skeleton calls (Guarded.mk (FileStore.mk tree path)) = .ok (as, g)) ∧
      ∃ g, work skeleton calls (Guarded.mk (MemoryStore.mk t)) = .ok (as, g) := by
  have memory (earlier : List Call) := work_shows MemoryStore.reliable (s := ⟨t⟩) rfl id skeleton
    earlier fun _ _ _ _ => id
  have small : ∀ earlier, earlier <+: calls →
      Bears FileStore.TooLarge (pageAfter earlier (opening skeleton t)) := by
    intro earlier he u hu hl
    obtain ⟨m, hr, hm⟩ := memory earlier
    have hlt := hfits earlier he _ _ hr
    have hp : m.store.text = (pageAfter earlier (opening skeleton t)).text := hm.held
    rw [hp] at hlt
    exact absurd (Nat.lt_of_le_of_lt hu hlt) (Nat.not_lt_of_le hl)
  have hopen : ¬ FileStore.TooLarge t := Nat.not_le_of_lt ht
  have k := FileStore.keeps path
  obtain ⟨m, hrm, hm⟩ := memory calls
  obtain ⟨f, hrf, hf⟩ := work_shows k (s := ⟨tree, path⟩) ⟨rfl, hfile⟩ hopen skeleton calls small
  obtain ⟨g, hrg, -⟩ := work_shows (Guarded.keeps k) (s := ⟨⟨tree, path⟩⟩) ⟨rfl, hfile⟩ hopen
    skeleton calls small
  obtain ⟨g', hrg', -⟩ := work_shows (Guarded.keeps MemoryStore.reliable) (s := ⟨⟨t⟩⟩) rfl id
    skeleton calls fun _ _ _ _ => id
  exact ⟨_, f, m, hrf, hrm, hf.agree hm, ⟨g, hrg⟩, g', hrg'⟩

/-- A file with characters of several bytes and no line feed at its end. -/
def accented : FileTree := ⟨[], [([['f']], .file (Text.utf8 "é\x7d\nb".toList) false)]⟩

/-- Calls that cut before such a character, read the last line, and go past the end. -/
def visits : List Call :=
  [.line 2, .step (.write "x\nü\x7d".toList), .lastLine, .step (.eraseThrough 'é'), .step .reseal,
    .step (.dispatch [] ⟨.delete, some (.range 1 7), none⟩), .line 9, .listing]

theorem file_agrees_with_memory_multibyte :
    (∀ earlier, earlier <+: visits → ∀ as m,
      work none earlier (MemoryStore.mk "é\x7d\nb".toList) = .ok (as, m) →
        m.store.text.byteSize < FileStore.offsetLimit) ∧
    ∃ as f m, work none visits (FileStore.mk accented "f") = .ok (as, f) ∧
      work none visits (MemoryStore.mk "é\x7d\nb".toList) = .ok (as, m) ∧ Agree "f" f m ∧
      (∃ g, work none visits (Guarded.mk (FileStore.mk accented "f")) = .ok (as, g)) ∧
      ∃ g, work none visits (Guarded.mk (MemoryStore.mk "é\x7d\nb".toList)) = .ok (as, g) := by
  have hfile : accented.bytesOf "f" = .ok (Text.utf8 "é\x7d\nb".toList) := rfl
  have hsmall : ∀ n ≤ visits.length,
      (match work none (visits.take n) (MemoryStore.mk "é\x7d\nb".toList) with
        | .ok (_, m) => decide (m.store.text.byteSize < FileStore.offsetLimit)
        | .error _ => false) = true := by decide +kernel
  have hfits : ∀ earlier, earlier <+: visits → ∀ as m,
      work none earlier (MemoryStore.mk "é\x7d\nb".toList) = .ok (as, m) →
        m.store.text.byteSize < FileStore.offsetLimit := by
    intro earlier he as m hr
    have h := hsmall earlier.length he.length_le
    rw [← List.prefix_iff_eq_take.mp he, hr] at h
    exact of_decide_eq_true h
  exact ⟨hfits, file_agrees_with_memory hfile (by decide) none visits hfits⟩

end Buffer
end LineRepl
