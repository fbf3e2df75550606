import LineRepl.Proofs.StoreInvariants
import LineRepl.Session.Basic

/-! Surroundings under observation. What the tools find in the store is kept each time they are
called, and nothing else comes of it. -/
namespace LineRepl

open Attempt

structure Observed (ω : Type) where
  inner : ω
  /-- What the surroundings were at each call of the tools, oldest first. -/
  seen : List ω := []

namespace Observed

variable {ω ε α : Type}

def pass (act : EStateM ε ω α) : EStateM ε (Observed ω) α :=
  within inner (fun inner w => { w with inner }) act

instance [Workshop ω] : Workshop (Observed ω) where
  load := pass TextStore.load
  replace t := pass (TextStore.replace t)
  append t := pass (TextStore.append t)
  truncate size := pass (TextStore.truncate size)
  readLineAt offset := pass (TextStore.readLineAt offset)
  buildAndRun source := fun w =>
    pass (Workshop.buildAndRun source) { w with seen := w.seen ++ [w.inner] }
  appendLog path tag text := pass (Workshop.appendLog path tag text)

theorem pass_ends {act : EStateM ε ω α} {w : Observed ω} {ok : α → ω → Prop} {error : ε → ω → Prop}
    (h : Ends act w.inner ok error) :
    Ends (pass act) w (fun a v => ok a v.inner ∧ v.seen = w.seen)
      (fun e v => error e v.inner ∧ v.seen = w.seen) := by
  refine h.within.mono ?_ ?_
  · rintro a _ ⟨t, ha, rfl⟩
    exact ⟨ha, rfl⟩
  · rintro e _ ⟨t, he, rfl⟩
    exact ⟨he, rfl⟩

theorem pass_seen {act : EStateM ε ω α} {w : Observed ω} {seen : List ω} (h : w.seen = seen) :
    Ends (pass act) w (fun _ v => v.seen = seen) (fun _ v => v.seen = seen) :=
  .within_rest fun _ => h

variable [Workshop ω]

theorem wraps : Wraps (inner (ω := ω)) fun inner w => { w with inner } where
  part_put _ _ := rfl
  load := rfl
  replace _ := rfl
  append _ := rfl
  truncate _ := rfl
  readLineAt _ := rfl

/-- Calls of the store are not observed. -/
theorem calls_stable (calls : List ω → Prop) : Stable fun w : Observed ω => calls w.seen :=
  wraps.stable_rest fun _ _ h => h

theorem stable (seen : List ω) : Stable fun w : Observed ω => w.seen = seen :=
  calls_stable fun s => s = seen

/-- A text is kept as it is without an observer, with whatever is known of the calls of the tools. -/
theorem keeps_with {fails : Text → Prop} {holds : ω → Text → Prop} (k : Keeps fails holds)
    (calls : List ω → Prop) :
    Keeps fails fun (w : Observed ω) t => holds w.inner t ∧ calls w.seen :=
  (wraps.keeps k).with_stable (calls_stable calls)

end Observed

/-- The session goes on under observation. -/
def Session.observed {ω : Type} (s : Session ω) : Session (Observed ω) where
  buffer :=
    { store := { inner := s.buffer.store }
      index := s.buffer.index, cursor := s.buffer.cursor, mode := s.buffer.mode }
  options := s.options
  output := s.output

end LineRepl
