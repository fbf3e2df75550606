import LineRepl.Text.Basic

/-!
The line being typed and its editing cursor, which counts characters and stands between them.
-/
namespace LineRepl

structure EditLine where
  text : Text := []
  cursor : Nat := 0
  deriving DecidableEq, Repr

namespace EditLine

/-- Puts a character at the cursor and steps past it. -/
def insert (c : Char) (l : EditLine) : EditLine :=
  ⟨l.text.take l.cursor ++ c :: l.text.drop l.cursor, l.cursor + 1⟩

/-- Drops the character before the cursor, or the first one when the cursor is at the start. -/
def backspace (l : EditLine) : EditLine :=
  if l.text.isEmpty then l
  else
    let cursor := max l.cursor 1
    ⟨l.text.take (cursor - 1) ++ l.text.drop cursor, cursor - 1⟩

/-- Drops the character at the cursor. -/
def deleteForward (l : EditLine) : EditLine :=
  if l.cursor < l.text.length then
    ⟨l.text.take l.cursor ++ l.text.drop (l.cursor + 1), l.cursor⟩
  else l

def moveLeft (l : EditLine) : EditLine := { l with cursor := l.cursor - 1 }

def moveRight (l : EditLine) : EditLine :=
  if l.cursor < l.text.length then { l with cursor := l.cursor + 1 } else l

/-- A line with the cursor at its end. -/
def ofText (t : Text) : EditLine := ⟨t, t.length⟩

/-- Whether backspace has something to drop. -/
def canBackspace (l : EditLine) : Bool := !l.text.isEmpty

/-- Whether forward delete has something to drop. -/
def canDeleteForward (l : EditLine) : Bool := l.cursor < l.text.length

end EditLine
end LineRepl
