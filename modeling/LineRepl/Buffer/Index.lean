import LineRepl.Text.Basic

/-!
Where the lines of a stored text begin. The first line begins at offset 0 also when the text is
empty, so only the later lines are recorded, and an index has at least one line by construction.
-/
namespace LineRepl

structure LineIndex where
  /-- Byte offsets of line 2 and those after it. -/
  later : List Nat := []
  deriving DecidableEq, Repr

namespace LineIndex

/-- Offsets just after each line feed of a text that begins at `here`. -/
def startsFrom (here : Nat) : Text → List Nat
  | [] => []
  | c :: r =>
    let next := here + c.utf8Size
    if c = '\n' then next :: startsFrom next r else startsFrom next r

def scan (t : Text) : LineIndex := ⟨startsFrom 0 t⟩

/-- One more than the number of line feeds. -/
def lineCount (x : LineIndex) : Nat := x.later.length + 1

/-- Where a line begins; lines count from 1. -/
def offset? (x : LineIndex) : Nat → Option Nat
  | 0 => none
  | n + 1 => (0 :: x.later)[n]?

def contains (x : LineIndex) (line : Nat) : Bool := (x.offset? line).isSome

end LineIndex
end LineRepl
