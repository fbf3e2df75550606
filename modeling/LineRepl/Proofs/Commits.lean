import LineRepl.Proofs.SessionPages
import LineRepl.Proofs.Writes

/-! Commits lose nothing. A commit writes a line and then closes the program, and closing cuts the
text at its last brace, wherever that stands. In a text that ends in the closing line it stands in
this line, also after the write, so that the cut takes the closing line alone and puts it back. -/
namespace LineRepl

open Attempt Buffer
open Text (Closed)

/-- The pages that commits come past, one after the other: with each of the lines the program is
written first and closed after that. -/
def Page.passed : List Text → Page → List Page
  | [], p => [p]
  | text :: rest, p => p :: p.written (text ++ ['\n']) :: passed rest (p.entered text)

theorem Page.passed_one_subset (text : Text) (rest : List Text) (p : Page) :
    p.passed [text] ⊆ p.passed (text :: rest) := by
  cases rest <;> simp [Page.passed]

namespace Buffer

variable {σ : Type} [TextStore σ] {fails : Text → Prop} {holds : σ → Text → Prop} {b b' : Buffer σ}
  {p : Page}

/-- A commit goes through if the store can bear the pages that it comes past. -/
theorem enter_bears (k : Keeps fails holds) (h : Reads holds b p) (t : Text)
    (hf : ∀ q ∈ p.passed [t], Bears fails q) :
    ∃ b', Session.enter t b = .ok () b' ∧ Shows holds b' (p.entered t) := by
  have hbefore : Bears fails p := hf p (by simp [Page.passed])
  have hwritten : Bears fails (p.written (t ++ ['\n'])) := hf _ (by simp [Page.passed])
  have hentered : Bears fails (p.entered t) := hf _ (by simp [Page.passed])
  obtain ⟨_, b₁, hw, h₁⟩ := ((write_drafts k (t ++ ['\n'])).ends h).exists_ok
    fun _ _ ⟨_, hs, hu⟩ => hbefore.not_fails hwritten hs hu
  obtain ⟨_, b₂, hr, -, h₂⟩ := (reseal_spans k h₁.toReads).exists_ok
    fun _ _ ⟨_, hs, hu⟩ => hwritten.not_fails hentered hs hu
  refine ⟨b₂, ?_, h₂⟩
  simp only [Session.enter, bind_apply, hw, hr]

theorem enter_shows (k : Reliable holds) (h : Reads holds b p) (t : Text) :
    ∃ b', Session.enter t b = .ok () b' ∧ Shows holds b' (p.entered t) :=
  enter_bears k h t fun _ _ _ _ => id

omit [TextStore σ]

/-- `b'` is `b` with a line spliced into the text `K` where the cursor line begins. -/
structure Inserted (holds : σ → Text → Prop) (b : Buffer σ) (K t : Text) (b' : Buffer σ) :
    Prop where
  text : ∃ offset front back, b.index.offset? b.cursor = some offset ∧
    K.cutAt offset = some (front, back) ∧ Consistent holds b' (front ++ (t ++ ['\n']) ++ back)
  cursor : b'.cursor = b.cursor + 1
  lineCount : b'.lineCount = b.lineCount + 1 + t.feeds
  mode : b'.mode = .insert

/-- `b'` is `b` with the cursor line of the text `K` replaced. -/
structure Replaced (holds : σ → Text → Prop) (b : Buffer σ) (K t : Text) (b' : Buffer σ) :
    Prop where
  text : Consistent holds b' (K.pieces.set (b.cursor - 1) (t ++ ['\n'])).flatten
  cursor : b'.cursor = b.cursor + 1
  mode : b'.mode = .insert

/-- `b'` is what a commit of `t` should make of `b`: in insert mode for every `t`, in replace mode
for a single line in place of a line that is not the last. -/
def Committed (holds : σ → Text → Prop) (b : Buffer σ) (K t : Text) (b' : Buffer σ) : Prop :=
  match b.mode with
  | .insert => Inserted holds b K t b'
  | .replace => '\n' ∉ t → b.cursor < b.lineCount - 1 → Replaced holds b K t b'

theorem Consistent.inserted {K : Text} (h : Consistent holds b K) (hK : K.Closed)
    (hm : b.mode = .insert) {t : Text}
    (h' : Shows holds b' (Page.entered t ⟨K, b.cursor, b.mode⟩)) : Inserted holds b K t b' := by
  have hp := h.inRange
  obtain ⟨hoff, hcut⟩ := h.cut_at_cursor
  have hin : (Page.entered t ⟨K, b.cursor, b.mode⟩).InRange := Page.resealed_inRange _
  have hc := h'.consistent hin
  have hcur := h'.cursor
  have hmode := h'.mode
  rw [Page.entered_insert hp hK hm] at hc hcur hmode
  refine ⟨⟨_, _, _, hoff, hcut, hc⟩, hcur, ?_, hmode⟩
  have hfeeds := congrArg Text.feeds (Text.lead_append_rest (b.cursor - 1) K)
  have hfeed : Text.feeds ['\n'] = 1 := rfl
  rw [hc.lineCount, h.lineCount, ← hfeeds]
  simp only [Text.feeds_append, hfeed]
  omega

theorem Consistent.replaced {K : Text} (h : Consistent holds b K) (hK : K.Closed)
    (hm : b.mode = .replace) {t : Text} (ht : '\n' ∉ t) (hlt : b.cursor < b.lineCount - 1)
    (h' : Shows holds b' (Page.entered t ⟨K, b.cursor, b.mode⟩)) : Replaced holds b K t b' := by
  have hpos := h.cursor_pos
  have hlt' : b.cursor < K.feeds := by
    rw [h.lineCount] at hlt
    omega
  have hin : (Page.entered t ⟨K, b.cursor, b.mode⟩).InRange := Page.resealed_inRange _
  have hc := h'.consistent hin
  have hcur := h'.cursor
  have hmode := h'.mode
  rw [Page.entered_replace h.inRange hK hm ht hlt'] at hc hcur hmode
  have hset : (K.pieces.set (b.cursor - 1) (t ++ ['\n'])).flatten =
      K.lead (b.cursor - 1) ++ (t ++ ['\n']) ++ K.rest b.cursor := by
    have hlen := hK.length_pieces
    rw [List.set_eq_take_append_cons_drop, if_pos (by omega), Nat.sub_add_cancel hpos,
      List.flatten_append, List.flatten_cons, ← List.append_assoc]
    rfl
  exact ⟨hset ▸ hc, hcur, hmode⟩

theorem Consistent.committed {K : Text} (h : Consistent holds b K) (hK : K.Closed) {t : Text}
    (h' : Shows holds b' (Page.entered t ⟨K, b.cursor, b.mode⟩)) : Committed holds b K t b' := by
  unfold Committed
  split
  · rename_i hm
    exact h.inserted hK hm h'
  · rename_i hm
    exact fun ht hlt => h.replaced hK hm ht hlt h'

end Buffer

namespace Session

variable {ω : Type} [Workshop ω] {holds : ω → Text → Prop} {s : Session ω}

theorem commit_of_enter {t : Text} {b' : Buffer ω} (h : enter t s.buffer = .ok () b') :
    commit t s = build { s with buffer := b' } := by
  rw [commit_apply, h]

/-- **A commit loses nothing**, whatever braces the text and the line contain, as long as the text
ends in the closing line. The tools are called with the new text in the store, and it is there
however the commit ends, unless tools or log write into the store themselves. -/
theorem commit_loses_nothing (k : Reliable holds) {K : Text} (h : Consistent holds s.buffer K)
    (hK : K.Closed) (t : Text) :
    ∃ b', commit t s = build { s with buffer := b' } ∧
      Committed holds s.buffer K t b' ∧
      (LeavesText holds → Ends (commit t) s (fun _ s' => Committed holds s.buffer K t s'.buffer)
        (fun _ s' => Committed holds s.buffer K t s'.buffer)) := by
  obtain ⟨b', hr, h'⟩ := enter_shows k h.shows.toReads t
  have hc := commit_of_enter hr
  refine ⟨b', hc, h.committed hK h', fun tools => ?_⟩
  have hb := build_leavesPage tools (s := { s with buffer := b' }) h'
  rw [Ends, hc]
  exact hb.mono (fun _ _ => h.committed hK) fun _ _ => h.committed hK

/-- A session over a text in memory, in which neither the store nor the tools fail. -/
def rehearsed (text : Text) (cursor : Nat) (mode : WriteMode) : Session Rehearsal where
  buffer :=
    { store :=
        { place := { inner := ⟨⟨[], []⟩, .memory text⟩, schedule := FaultyStore.never }
          answers := fun _ => .ok {} }
      index := LineIndex.scan text, cursor, mode }
  options := { source := "main.cpp", skeleton := [] }

/-- Between blocks that end in braces of their own. -/
theorem commit_loses_nothing_braces :
    Ends (commit "\x7d else \x7b".toList)
      (rehearsed "f()\x7b\x7d\n\x7d\n\x7d\n".toList 2 .replace)
      (fun _ s => s.buffer.cursor = 3 ∧
        Consistent Rehearsal.Holds s.buffer "f()\x7b\x7d\n\x7d else \x7b\n\x7d\n".toList)
      (fun _ s => s.buffer.cursor = 3 ∧
        Consistent Rehearsal.Holds s.buffer "f()\x7b\x7d\n\x7d else \x7b\n\x7d\n".toList) := by
  have h : Consistent Rehearsal.Holds
      (rehearsed "f()\x7b\x7d\n\x7d\n\x7d\n".toList 2 .replace).buffer
      "f()\x7b\x7d\n\x7d\n\x7d\n".toList := ⟨⟨rfl, rfl⟩, rfl, by decide, by decide⟩
  obtain ⟨_, -, -, hs⟩ := commit_loses_nothing Rehearsal.reliable h
    ⟨"f()\x7b\x7d\n\x7d\n".toList, rfl⟩ "\x7d else \x7b".toList
  refine (hs Rehearsal.leavesText).mono (fun _ _ hb => ?_) fun _ _ hb => ?_
  all_goals
    have hr := hb (by decide) (by decide)
    exact ⟨hr.cursor, hr.text⟩

end Session
end LineRepl
