import LineRepl.Proofs.Ends
import LineRepl.Proofs.Offsets
import LineRepl.Store.Faulty
import LineRepl.Store.Place

/-! What a buffer may rely on in a store. `holds` tells which text a state of the store keeps. A
call has the effect on this text that its name says, or it fails and leaves the text as it was;
`fails` tells on which texts a call may fail at all. Nowhere, and the store is reliable; everywhere,
and it fails by any schedule. -/
namespace LineRepl

open Attempt

/-- The laws of the four calls that go to a place in the store. Offsets are those of the store's own
text, and lines are read where lines begin. -/
structure Edits {σ : Type} [TextStore σ] (fails : Text → Prop) (holds : σ → Text → Prop) :
    Prop where
  replace {s : σ} {t : Text} (u : Text) : holds s t →
    Ends (TextStore.replace u) s (fun _ s => holds s u) (fun _ s => fails u ∧ holds s t)
  append {s : σ} {t : Text} (u : Text) : holds s t →
    Ends (TextStore.append u) s (fun _ s => holds s (t ++ u))
      (fun _ s => fails (t ++ u) ∧ holds s t)
  truncate {s : σ} {t u : Text} : holds s (t ++ u) →
    Ends (TextStore.truncate t.byteSize) s (fun _ s => holds s t)
      (fun _ s => fails (t ++ u) ∧ holds s (t ++ u))
  readLineAt {s : σ} {t u : Text} : t.Complete → holds s (t ++ u) →
    Ends (TextStore.readLineAt t.byteSize) s (fun r s => r = u.firstPiece ∧ holds s (t ++ u))
      (fun _ s => fails (t ++ u) ∧ holds s (t ++ u))

/-- The laws of all five calls. -/
structure Keeps {σ : Type} [TextStore σ] (fails : Text → Prop) (holds : σ → Text → Prop) :
    Prop extends Edits fails holds where
  load {s : σ} {t : Text} : holds s t →
    Ends TextStore.load s (fun u s => u = t ∧ holds s t) (fun _ s => fails t ∧ holds s t)

/-- A store that never fails. -/
abbrev Reliable {σ : Type} [TextStore σ] (holds : σ → Text → Prop) : Prop :=
  Keeps (fun _ => False) holds

/-- A reliable store holds one text at a time: the one that it loads. -/
theorem Keeps.unique {σ : Type} [TextStore σ] {holds : σ → Text → Prop} (k : Reliable holds) {s : σ}
    {t u : Text} (ht : holds s t) (hu : holds s u) : t = u := by
  obtain ⟨x, _, hx, rfl, -⟩ := (k.load ht).exists_ok fun _ _ h => h.1
  obtain ⟨y, _, hy, rfl, -⟩ := (k.load hu).exists_ok fun _ _ h => h.1
  rw [hx] at hy
  exact (EStateM.Result.ok.inj hy).1

/-- A store that leaves its calls to a part of it that is a store. -/
structure Wraps {σ τ : Type} [TextStore σ] [TextStore τ] (part : σ → τ) (put : τ → σ → σ) :
    Prop where
  part_put (t : τ) (s : σ) : part (put t s) = t
  load : TextStore.load = within part put TextStore.load
  replace (u : Text) : TextStore.replace u = within part put (TextStore.replace u)
  append (u : Text) : TextStore.append u = within part put (TextStore.append u)
  truncate (size : Nat) : TextStore.truncate size = within part put (TextStore.truncate size)
  readLineAt (offset : Nat) :
    TextStore.readLineAt offset = within part put (TextStore.readLineAt offset)

section Wraps

variable {σ τ α : Type} [TextStore σ] [TextStore τ] {part : σ → τ} {put : τ → σ → σ}

/-- One call. -/
theorem Wraps.ends (w : Wraps part put) {call : EStateM IoError σ α} {inner : EStateM IoError τ α}
    (hcall : call = within part put inner) {s : σ} {ok : α → τ → Prop} {error : IoError → τ → Prop}
    (h : Ends inner (part s) ok error) :
    Ends call s (fun a s => ok a (part s)) fun e s => error e (part s) := by
  rw [hcall]
  exact h.within_part fun t => w.part_put t s

/-- It keeps the text of that part. -/
theorem Wraps.keeps (w : Wraps part put) {fails : Text → Prop} {holds : τ → Text → Prop}
    (k : Keeps fails holds) : Keeps fails fun s t => holds (part s) t where
  load h := w.ends w.load (k.load h)
  replace u h := w.ends (w.replace u) (k.replace u h)
  append u h := w.ends (w.append u) (k.append u h)
  truncate h := w.ends (w.truncate _) (k.truncate h)
  readLineAt ht h := w.ends (w.readLineAt _) (k.readLineAt ht h)

end Wraps

namespace MemoryStore

/-- The text in memory. -/
def Holds (s : MemoryStore) (t : Text) : Prop := s.text = t

theorem truncate_append (t u : Text) : truncate t.byteSize ⟨t ++ u⟩ = .ok () ⟨t⟩ := by
  unfold truncate
  split
  · rename_i h
    have hu : u = [] := Decidable.byContradiction fun hu => by
      have := Text.byteSize_pos hu
      rw [Text.byteSize_append] at h
      omega
    rw [hu, List.append_nil]
  · rw [Text.cutAt_append]

theorem lineAt_append (t u : Text) : lineAt t.byteSize ⟨t ++ u⟩ = u.firstPiece := by
  rw [lineAt, Text.cutAt_append]

theorem reliable : Reliable Holds where
  load := by
    intro s t h
    exact ⟨h, h⟩
  replace u _ := rfl
  append u h := congrArg (· ++ u) h
  truncate := by
    rintro ⟨_⟩ t u rfl
    show Ends (truncate t.byteSize) _ _ _
    rw [Ends, truncate_append]
    rfl
  readLineAt := by
    rintro ⟨_⟩ t u - rfl
    exact ⟨lineAt_append t u, rfl⟩

end MemoryStore

namespace FaultyStore

variable {σ α : Type} [TextStore σ]

/-- The text of the store behind the schedule. -/
def Holds (holds : σ → Text → Prop) (s : FaultyStore σ) (t : Text) : Prop := holds s.inner t

omit [TextStore σ] in
/-- A call that the schedule refuses leaves what is behind it alone. -/
theorem attempt_leaves {call : StoreCall} {act : EStateM IoError σ α} {s : FaultyStore σ}
    {ok : α → σ → Prop} {kept : σ → Prop} (h : Ends act s.inner ok fun _ r => kept r)
    (hs : kept s.inner) :
    Ends (attempt call act) s (fun a r => ok a r.inner) fun _ r => kept r.inner := by
  unfold Ends attempt
  cases s.schedule call (s.made call) with
  | some e => exact hs
  | none =>
    cases ha : act s.inner with
    | ok a r => exact h.ok_of ha
    | error e r => exact h.error_of ha

omit [TextStore σ] in
theorem attempt_ends {holds : σ → Text → Prop} {call : StoreCall} {act : EStateM IoError σ α}
    {s : FaultyStore σ} {t : Text} {ok : α → σ → Prop} {f : Prop}
    (h : Ends act s.inner ok fun _ s => f ∧ holds s t) (hs : holds s.inner t) :
    Ends (attempt call act) s (fun a r => ok a r.inner) (fun _ r => True ∧ Holds holds r t) :=
  (attempt_leaves (h.mono (fun _ _ => id) fun _ _ => And.right) hs).mono (fun _ _ => id)
    fun _ _ h => ⟨trivial, h⟩

/-- By any schedule, a call fails without a trace or does what it does. -/
theorem keeps {fails : Text → Prop} {holds : σ → Text → Prop} (k : Keeps fails holds) :
    Keeps (fun _ => True) (Holds holds) where
  load h := attempt_ends (k.load h) h
  replace u h := attempt_ends (k.replace u h) h
  append u h := attempt_ends (k.append u h) h
  truncate h := attempt_ends (k.truncate h) h
  readLineAt ht h := attempt_ends (k.readLineAt ht h) h

omit [TextStore σ] in
theorem attempt_ends_never {call : StoreCall} {act : EStateM IoError σ α} {s : FaultyStore σ}
    {ok : α → σ → Prop} {error : IoError → σ → Prop} (h : Ends act s.inner ok error)
    (hs : s.schedule = never) :
    Ends (attempt call act) s (fun a r => r.schedule = never ∧ ok a r.inner)
      (fun e r => r.schedule = never ∧ error e r.inner) := by
  unfold Ends attempt
  have hn : s.schedule call (s.made call) = none := by rw [hs]; rfl
  rw [hn]
  cases ha : act s.inner with
  | ok a r => exact ⟨hs, h.ok_of ha⟩
  | error e r => exact ⟨hs, h.error_of ha⟩

/-- A schedule that refuses nothing adds no failures. -/
theorem keeps_never {fails : Text → Prop} {holds : σ → Text → Prop} (k : Keeps fails holds) :
    Keeps fails fun (s : FaultyStore σ) t => s.schedule = never ∧ holds s.inner t where
  load h := (attempt_ends_never (k.load h.2) h.1).mono
    (fun _ _ ⟨hs, ht, h⟩ => ⟨ht, hs, h⟩) fun _ _ ⟨hs, hf, h⟩ => ⟨hf, hs, h⟩
  replace u h := (attempt_ends_never (k.replace u h.2) h.1).mono
    (fun _ _ h => h) fun _ _ ⟨hs, hf, h⟩ => ⟨hf, hs, h⟩
  append u h := (attempt_ends_never (k.append u h.2) h.1).mono
    (fun _ _ h => h) fun _ _ ⟨hs, hf, h⟩ => ⟨hf, hs, h⟩
  truncate h := (attempt_ends_never (k.truncate h.2) h.1).mono
    (fun _ _ h => h) fun _ _ ⟨hs, hf, h⟩ => ⟨hf, hs, h⟩
  readLineAt ht h := (attempt_ends_never (k.readLineAt ht h.2) h.1).mono
    (fun _ _ ⟨hs, ht, h⟩ => ⟨ht, hs, h⟩) fun _ _ ⟨hs, hf, h⟩ => ⟨hf, hs, h⟩

end FaultyStore

namespace Place

/-- The text is kept in memory. -/
def Holds (p : Place) (t : Text) : Prop := p.keeping = .memory t

theorem Holds.of_memory {p : Place} {s : MemoryStore} {t : Text} (hp : Holds p s.text)
    (hs : s.Holds t) : Holds p t := hp.trans (congrArg Keeping.memory hs)

/-- A call goes to the text in memory, and the place keeps what comes of it. -/
theorem call_ends {α : Type} {inMemory : EStateM IoError MemoryStore α}
    {onDisk : EStateM IoError FileStore α} {p : Place} {t : Text} {ok : α → MemoryStore → Prop}
    {kept : MemoryStore → Prop} (h : Ends inMemory ⟨t⟩ ok fun _ s => False ∧ kept s)
    (hp : Holds p t) :
    Ends (call inMemory onDisk) p (fun a q => ∃ s : MemoryStore, Holds q s.text ∧ ok a s)
      fun _ q => False ∧ Holds q t := by
  obtain ⟨a, s, ha, hok⟩ := h.exists_ok fun _ _ => And.left
  unfold Ends call
  rw [hp]
  simp only [ha]
  exact ⟨s, rfl, hok⟩

theorem reliable : Reliable Holds where
  load h := (call_ends (MemoryStore.reliable.load rfl) h).mono
    (fun _ _ ⟨_, hq, hv, hs⟩ => ⟨hv, hq.of_memory hs⟩) fun _ _ => id
  replace u h := (call_ends (MemoryStore.reliable.replace u rfl) h).mono
    (fun _ _ ⟨_, hq, hs⟩ => hq.of_memory hs) fun _ _ => id
  append u h := (call_ends (MemoryStore.reliable.append u rfl) h).mono
    (fun _ _ ⟨_, hq, hs⟩ => hq.of_memory hs) fun _ _ => id
  truncate h := (call_ends (MemoryStore.reliable.truncate rfl) h).mono
    (fun _ _ ⟨_, hq, hs⟩ => hq.of_memory hs) fun _ _ => id
  readLineAt ht h := (call_ends (MemoryStore.reliable.readLineAt ht rfl) h).mono
    (fun _ _ ⟨_, hq, hv, hs⟩ => ⟨hv, hq.of_memory hs⟩) fun _ _ => id

end Place
end LineRepl
