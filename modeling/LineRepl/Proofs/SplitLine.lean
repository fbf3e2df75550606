import LineRepl.Terminal.Reader

/-! A line as the characters on the two sides of the cursor, those before it nearest first. Here each
editing key does one thing at the cursor and counts nothing. Keys do to a line with a counted cursor
what they do to its two sides. -/
namespace LineRepl

structure SplitLine where
  before : Text := []
  after : Text := []
  deriving DecidableEq, Repr

namespace SplitLine

def text (s : SplitLine) : Text := s.before.reverse ++ s.after

/-- The same line with its cursor counted. -/
def toLine (s : SplitLine) : EditLine := ⟨s.text, s.before.length⟩

/-- A line with the cursor at its end. -/
def ofText (t : Text) : SplitLine := ⟨t.reverse, []⟩

def insert (c : Char) (s : SplitLine) : SplitLine := ⟨c :: s.before, s.after⟩

/-- Drops the character before the cursor, or the first one when there is none before it. -/
def backspace : SplitLine → SplitLine
  | ⟨_ :: before, after⟩ => ⟨before, after⟩
  | ⟨[], after⟩ => ⟨[], after.tail⟩

def deleteForward (s : SplitLine) : SplitLine := ⟨s.before, s.after.tail⟩

def moveLeft : SplitLine → SplitLine
  | ⟨c :: before, after⟩ => ⟨before, c :: after⟩
  | s => s

def moveRight : SplitLine → SplitLine
  | ⟨before, c :: after⟩ => ⟨c :: before, after⟩
  | s => s

/-- What a key does to the line and to the lines that are recalled. -/
def press (key : Key) (s : SplitLine) (h : HistoryRing) : SplitLine × HistoryRing :=
  match key with
  | .char c => (s.insert c, h)
  | .backspace => (s.backspace, h)
  | .deleteForward => (s.deleteForward, h)
  | .left => (s.moveLeft, h)
  | .right => (s.moveRight, h)
  | .up => (ofText h.recallPrevious.1, h.recallPrevious.2)
  | .down => (ofText h.recallNext.1, h.recallNext.2)
  | .enter | .interrupt | .other => (s, h)

/-! ## Keys on a counted line -/

theorem toLine_mk (before after : Text) :
    toLine ⟨before, after⟩ = ⟨before.reverse ++ after, before.length⟩ := rfl

/-- The character before the cursor, seen from the other side of it. -/
theorem toLine_cons (c : Char) (before after : Text) :
    toLine ⟨c :: before, after⟩ = ⟨before.reverse ++ c :: after, before.length + 1⟩ := by
  rw [toLine_mk, List.reverse_cons, List.append_assoc]
  rfl

theorem take_toLine (before after : Text) :
    (before.reverse ++ after).take before.length = before.reverse := by
  rw [← List.length_reverse, List.take_left]

theorem drop_toLine (before after : Text) :
    (before.reverse ++ after).drop before.length = after := by
  rw [← List.length_reverse, List.drop_left]

theorem drop_toLine_succ (before after : Text) :
    (before.reverse ++ after).drop (before.length + 1) = after.tail := by
  rw [← List.drop_drop, drop_toLine, List.drop_one]

theorem lt_length_toLine (before after : Text) :
    before.length < (before.reverse ++ after).length ↔ after ≠ [] := by
  rw [List.length_append, List.length_reverse, ← List.length_pos_iff]
  omega

theorem insert_toLine (c : Char) (s : SplitLine) : s.toLine.insert c = (s.insert c).toLine := by
  obtain ⟨before, after⟩ := s
  rw [insert, toLine_mk, toLine_cons, EditLine.insert, take_toLine, drop_toLine]

theorem backspace_toLine (s : SplitLine) : s.toLine.backspace = s.backspace.toLine := by
  match s with
  | ⟨[], []⟩ => rfl
  | ⟨[], c :: after⟩ => rfl
  | ⟨c :: before, after⟩ =>
    have hm : max (before.length + 1) 1 = before.length + 1 := by omega
    rw [backspace, toLine_cons, toLine_mk, EditLine.backspace, if_neg (by simp)]
    simp only [hm, Nat.add_sub_cancel, take_toLine, drop_toLine_succ, List.tail_cons]

theorem deleteForward_toLine (s : SplitLine) :
    s.toLine.deleteForward = s.deleteForward.toLine := by
  obtain ⟨before, after⟩ := s
  rw [deleteForward, toLine_mk, toLine_mk, EditLine.deleteForward]
  simp only [lt_length_toLine, take_toLine, drop_toLine_succ]
  cases after with
  | nil => rfl
  | cons c after => rfl

theorem moveLeft_toLine (s : SplitLine) : s.toLine.moveLeft = s.moveLeft.toLine := by
  match s with
  | ⟨[], after⟩ => rfl
  | ⟨c :: before, after⟩ => rw [moveLeft, toLine_cons, toLine_mk]; rfl

theorem moveRight_toLine (s : SplitLine) : s.toLine.moveRight = s.moveRight.toLine := by
  obtain ⟨before, after⟩ := s
  rw [toLine_mk, EditLine.moveRight]
  simp only [lt_length_toLine]
  cases after with
  | nil => rfl
  | cons c after => rw [moveRight, toLine_cons]; rfl

theorem ofText_toLine (t : Text) : (ofText t).toLine = EditLine.ofText t := by
  rw [ofText, toLine_mk, List.reverse_reverse, List.append_nil, List.length_reverse]
  rfl

/-- **A key does to a counted line what it does to its two sides.** -/
theorem edit_toLine (key : Key) (s : SplitLine) (h : HistoryRing) :
    Terminal.edit key s.toLine h = ((s.press key h).1.toLine, (s.press key h).2) := by
  cases key with
  | char c => exact congrArg (·, h) (insert_toLine c s)
  | backspace => exact congrArg (·, h) (backspace_toLine s)
  | deleteForward => exact congrArg (·, h) (deleteForward_toLine s)
  | left => exact congrArg (·, h) (moveLeft_toLine s)
  | right => exact congrArg (·, h) (moveRight_toLine s)
  | up => exact congrArg (·, _) (ofText_toLine _).symm
  | down => exact congrArg (·, _) (ofText_toLine _).symm
  | enter | interrupt | other => rfl

end SplitLine
end LineRepl
