import LineRepl.Proofs.BufferPages

/-! Stores that refuse one load to come, and what buffers over them hold when it is refused. A scan
loads the whole text, so refusing the right load stops a change just after its edit, when the text
is a new one already. -/
namespace LineRepl

open Attempt

namespace FaultyStore

/-- The schedule that refuses one load and nothing else. -/
def refusesLoad (n : Nat) : StoreSchedule := fun call made =>
  if call = .load ∧ made = n then some ⟨.other, "refused"⟩ else none

variable {σ α : Type} {holds : σ → Text → Prop} {n : Nat} {s : FaultyStore σ} {t u : Text}

/-- `n` loads from now, one is refused. -/
structure Fused (holds : σ → Text → Prop) (n : Nat) (s : FaultyStore σ) (t : Text) : Prop where
  held : holds s.inner t
  schedule : s.schedule = refusesLoad (s.made .load + n)

/-- Other calls go through. -/
theorem Fused.attempt_ends {call : StoreCall} (hc : call ≠ .load) (h : Fused holds n s t)
    {act : EStateM IoError σ α} {ok : α → σ → Prop} {kept : IoError → σ → Prop}
    (ha : Ends act s.inner ok fun e r => False ∧ kept e r) :
    Ends (attempt call act) s
      (fun a r => ok a r.inner ∧ r.schedule = refusesLoad (r.made .load + n)) fun _ _ => False := by
  have hn : s.schedule call (s.made call) = none := by
    rw [h.schedule]
    exact if_neg fun hl => hc hl.1
  have hmade : (if .load = call then s.made .load + 1 else s.made .load) = s.made .load :=
    if_neg (Ne.symm hc)
  obtain ⟨a, r, hr, ha⟩ := ha.exists_ok fun _ _ => And.left
  unfold Ends attempt
  simp only [hn, hr, hmade]
  exact ⟨ha, h.schedule⟩

variable [TextStore σ]

theorem Fused.edits (k : Reliable holds) (n : Nat) : Edits (fun _ => False) (Fused holds n) where
  replace u h := (h.attempt_ends (by decide) (k.replace u h.held)).mono
    (fun _ _ h => ⟨h.1, h.2⟩) fun _ _ => False.elim
  append u h := (h.attempt_ends (by decide) (k.append u h.held)).mono
    (fun _ _ h => ⟨h.1, h.2⟩) fun _ _ => False.elim
  truncate h := (h.attempt_ends (by decide) (k.truncate h.held)).mono
    (fun _ _ h => ⟨h.1, h.2⟩) fun _ _ => False.elim
  readLineAt ht h := (h.attempt_ends (by decide) (k.readLineAt ht h.held)).mono
    (fun _ _ h => ⟨h.1.1, h.1.2, h.2⟩) fun _ _ => False.elim

theorem Fused.load_ends (k : Reliable holds) (h : Fused holds (n + 1) s t) :
    Ends TextStore.load s (fun u r => u = t ∧ Fused holds n r t)
      (fun _ r => False ∧ Holds holds r t) := by
  have hn : s.schedule .load (s.made .load) = none := by
    rw [h.schedule]
    exact if_neg fun hl => absurd hl.2 (by omega)
  obtain ⟨u, r, hr, hu, ht⟩ := (k.load h.held).exists_ok fun _ _ => And.left
  show Ends (attempt .load TextStore.load) s _ _
  unfold Ends attempt
  simp only [hn, hr]
  have hmade : s.made .load + (n + 1) = s.made .load + 1 + n := by omega
  exact ⟨hu, ht, h.schedule.trans (congrArg refusesLoad hmade)⟩

theorem Fused.load_refused (h : Fused holds 0 s t) :
    Ends TextStore.load s (fun _ r => False ∧ Holds holds r t)
      (fun _ r => True ∧ Holds holds r t) := by
  have hn : s.schedule .load (s.made .load) = some ⟨.other, "refused"⟩ := by
    rw [h.schedule]
    exact if_pos ⟨rfl, rfl⟩
  show Ends (attempt .load TextStore.load) s _ _
  unfold Ends attempt
  simp only [hn]
  exact ⟨trivial, h.held⟩

end FaultyStore

namespace Buffer

open FaultyStore (Fused)

variable {σ α β ε : Type} {holds : σ → Text → Prop} {n : Nat} {b : Buffer (FaultyStore σ)} {p q : Page}

/-- The action ends in an error and leaves the page `q`. -/
def StopsAt (holds : σ → Text → Prop) (act : EStateM ε (Buffer (FaultyStore σ)) α)
    (b : Buffer (FaultyStore σ)) (q : Page) : Prop :=
  Ends act b (fun _ _ => False) fun _ b' => Reads (FaultyStore.Holds holds) b' q

theorem StopsAt.bind {act : EStateM ε (Buffer (FaultyStore σ)) α} (h : StopsAt holds act b q)
    (f : α → EStateM ε (Buffer (FaultyStore σ)) β) : StopsAt holds (act >>= f) b q :=
  Ends.bind h (fun _ _ => False.elim) fun _ _ => id

variable [TextStore σ]

theorem load_refused {operation : StoreOperation} (h : Reads (Fused holds 0) b p) :
    StopsAt holds (onStore operation TextStore.load) b p :=
  (onStore_reads h h.held.load_refused).mono (fun _ _ h => h.1) fun _ _ h => h.2.2.1

theorem rescan_refused (h : Reads (Fused holds 0) b p) : StopsAt holds rescan b p :=
  (load_refused h).bind _

theorem settled_refused {edit : Action (FaultyStore σ) α} {value : α}
    (hl : Lays (fun _ => False) (Fused holds 0) edit p value q) (h : Reads (Fused holds 0) b p) :
    StopsAt holds (settled edit) b q := by
  refine Ends.bind (hl h) ?_ ?_
  · intro _ b₁ h₁
    exact (rescan_refused h₁.2.1).bind _
  · intro e b₁ he
    exact (he.2.cause.elim id id).elim

theorem changed_refused_at_once {edit : Text → Action (FaultyStore σ) α}
    (h : Reads (Fused holds 0) b p) : StopsAt holds (changed edit) b p :=
  (load_refused h).bind _

variable (k : Reliable holds)
include k

theorem load_passes {operation : StoreOperation} (h : Reads (Fused holds (n + 1)) b p) :
    Ends (onStore operation TextStore.load) b
      (fun t b' => t = p.text ∧ Reads (Fused holds n) b' p ∧ b'.index = b.index)
      fun _ _ => False :=
  (onStore_reads h (h.held.load_ends k)).mono (fun _ _ => id) fun _ _ h => h.2.1

theorem changed_refused {edit : Text → Action (FaultyStore σ) α} {value : α}
    (hl : Lays (fun _ => False) (Fused holds 0) (edit p.text) p value q)
    (h : Reads (Fused holds 1) b p) : StopsAt holds (changed edit) b q := by
  refine (load_passes k h).bind ?_ fun _ _ => False.elim
  intro _ b₁ h₁
  obtain ⟨rfl, h₁, -⟩ := h₁
  exact settled_refused hl h₁

theorem changed_passes {edit : Text → Action (FaultyStore σ) α} {value : α}
    (hl : Lays (fun _ => False) (Fused holds (n + 1)) (edit p.text) p value q)
    (h : Reads (Fused holds (n + 2)) b p) :
    Ends (changed edit) b (fun a b' => a = value ∧ Shows (Fused holds n) b' q.settle)
      fun _ _ => False := by
  refine (load_passes k h).bind ?_ fun _ _ => False.elim
  intro _ b₁ h₁
  obtain ⟨rfl, h₁, -⟩ := h₁
  refine (hl h₁).bind ?_ fun _ _ he => he.2.cause.elim id id
  intro a b₂ h₂
  obtain ⟨rfl, h₂, -⟩ := h₂
  exact (rescan_of_load (load_passes k h₂)).bind (fun _ _ h₃ => ⟨rfl, h₃⟩) fun _ _ => id

end Buffer
end LineRepl
