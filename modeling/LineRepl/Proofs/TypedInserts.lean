import LineRepl.Proofs.ClosedSessions
import LineRepl.Proofs.Spellings

/-! Program text that is typed, and program text that is given to `ins`. Between commits the mode is
insert, and then the command is only a longer way: it is read, it sets the mode that is set already,
it puts the cursor on the line that it names, and its text is committed like a line that was typed. -/
namespace LineRepl

open Attempt Buffer
open Text (decimal)

namespace Buffer

variable {σ : Type} {b : Buffer σ}

theorem setMode_self {mode : WriteMode} (h : b.mode = mode) : b.setMode mode = b := by
  subst h
  rfl

theorem setCursor_mode (n : Nat) (b : Buffer σ) : (b.setCursor n).mode = b.mode := by
  unfold setCursor
  split <;> rfl

theorem setCursor_of_lt {n : Nat} (h : 1 ≤ n) (hn : n < b.lineCount) :
    b.setCursor n = { b with cursor := n } := if_pos ⟨h, hn⟩

end Buffer

namespace Statement

variable {n : Nat} {t : Text}

/-- Text that would not be taken for a line is text to insert. -/
theorem parse_insert (ht : t.Part) (hu : t.Unaddressed) :
    parse ("$ins ".toList ++ t) = .ok { command := .insert, body := some t } := by
  have hs : WellFormed { command := .insert, body := some t } :=
    .write (by decide) fun _ hb => Option.some.inj hb ▸ ⟨ht, hu⟩
  have he : render { command := .insert, body := some t } = "$ins ".toList ++ t := by
    simp [render, Text.spaced, Command.name, sigil]
  rw [← he]
  exact parse_of_spells hs (spells_render _)

/-- Behind a line any text is. -/
theorem parse_insertAt (hn : n < wordLimit) (ht : t.Part) :
    parse ("$ins ".toList ++ (decimal n ++ ' ' :: t)) =
      .ok { command := .insert, arg := some (.line n), body := some t } := by
  have hs : WellFormed { command := .insert, arg := some (.line n), body := some t } :=
    .writeAt (by decide) hn fun _ hb => Option.some.inj hb ▸ ht
  have he : render { command := .insert, arg := some (.line n), body := some t } =
      "$ins ".toList ++ (decimal n ++ ' ' :: t) := by
    simp [render, Text.spaced, Command.name, sigil, LineArg.render]
  rw [← he]
  exact parse_of_spells hs (spells_render _)

theorem parse_goto (hn : n < wordLimit) :
    parse ("$goto ".toList ++ decimal n) = .ok { command := .goto, arg := some (.line n) } := by
  have he : render { command := .goto, arg := some (.line n) } =
      "$goto ".toList ++ decimal n := by
    simp [render, Text.spaced, Command.name, sigil, LineArg.render]
  rw [← he]
  exact parse_of_spells (.goto hn) (spells_render _)

end Statement

namespace Session

variable {ω : Type} [Workshop ω] {s : Session ω} {line t : Text} {n : Nat}

theorem handleLine_of_insert {arg : Option LineArg} (hs : Statement.isStatement line = true)
    (hp : Statement.parse line = .ok { command := .insert, arg, body := some t }) :
    handleLine line s =
      (do commit t; pure Flow.proceed)
        { s with buffer := (Statement.aim arg s.buffer).setMode .insert } :=
  handleLine_of_run hs hp rfl

theorem handleLine_of_goto (hs : Statement.isStatement line = true)
    (hp : Statement.parse line = .ok { command := .goto, arg := some (.line n) }) :
    handleLine line s = .ok .proceed { s with buffer := s.buffer.setCursor n } :=
  handleLine_of_run hs hp rfl

/-- **Typing and inserting agree.** While the mode is insert, a text given to `ins` is handled just as
if it had been typed, unless its first token reads as a line or a range. Behind a line, which is a
machine word, it may be any text, and it is handled as if it had been typed after `goto` with this
line: on the line itself, if the cursor may stand there. This holds of all that comes of it, whatever
the store, the tools and the log answer, and so of the calls of the tools, too. -/
theorem insert_eq_typed (hm : s.buffer.mode = .insert) :
    (∀ t : Text, t.Part → Statement.isStatement t = false → t.Unaddressed →
      handleLine ("$ins ".toList ++ t) s = handleLine t s) ∧
    ∀ (n : Nat) (t : Text), n < wordLimit → t.Part → Statement.isStatement t = false →
      handleLine ("$ins ".toList ++ (decimal n ++ ' ' :: t)) s =
        (do let _ ← handleLine ("$goto ".toList ++ decimal n); handleLine t) s ∧
      (1 ≤ n → n < s.buffer.lineCount →
        handleLine ("$ins ".toList ++ (decimal n ++ ' ' :: t)) s =
          handleLine t { s with buffer := { s.buffer with cursor := n } }) := by
  refine ⟨fun t ht hs hu => ?_, fun n t hn ht hs => ?_⟩
  · have ha : Statement.aim none s.buffer = s.buffer := rfl
    rw [handleLine_of_insert rfl (Statement.parse_insert ht hu), handleLine_text hs, ha,
      setMode_self hm]
  · have hm' : (s.buffer.setCursor n).mode = .insert := (setCursor_mode n s.buffer).trans hm
    have hi : handleLine ("$ins ".toList ++ (decimal n ++ ' ' :: t)) s =
        handleLine t { s with buffer := s.buffer.setCursor n } := by
      rw [handleLine_of_insert rfl (Statement.parse_insertAt hn ht), handleLine_text hs,
        Statement.aim, setMode_self hm']
    refine ⟨?_, fun hpos hlt => ?_⟩
    · rw [hi, bind_apply, handleLine_of_goto rfl (Statement.parse_goto hn)]
    · rw [hi, setCursor_of_lt hpos hlt]

/-- A text that ends in braces, and one that begins with what would be a line. -/
theorem insert_eq_typed_digits :
    let s := (rehearsed "f()\x7b\x7d\nint x;\n\x7d\n".toList 1 .insert).observed
    handleLine ("$ins ".toList ++ "if (x) \x7b\x7d".toList) s =
        handleLine "if (x) \x7b\x7d".toList s ∧
      handleLine ("$ins ".toList ++ (decimal 2 ++ ' ' :: "2 - x;".toList)) s =
        (do let _ ← handleLine ("$goto ".toList ++ decimal 2); handleLine "2 - x;".toList) s := by
  intro s
  obtain ⟨hplain, hat⟩ := insert_eq_typed (s := s) rfl
  refine ⟨hplain _ ⟨?_, ?_, ?_⟩ ?_ ⟨?_, ?_⟩, (hat 2 _ ?_ ⟨?_, ?_, ?_⟩ ?_).1⟩
  all_goals decide

end Session
end LineRepl
