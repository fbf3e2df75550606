import LineRepl.Text.Basic

/-!
Lines of a text, in the two ways the program needs them: with their terminators, so that joining
them gives the text back, and bare, as a listing shows them.
-/
namespace LineRepl.Text

/-- The stored lines: cut after every line feed, so that a last line may lack its terminator. -/
def pieces : Text → List Text
  | [] => []
  | c :: r =>
    if c = '\n' then [c] :: pieces r
    else match pieces r with
      | [] => [[c]]
      | p :: ps => (c :: p) :: ps

/-- The first stored line, terminator included. -/
def firstPiece : Text → Text
  | [] => []
  | c :: r => if c = '\n' then [c] else c :: firstPiece r

def dropFeed (t : Text) : Text := (dropSuffix? ['\n'] t).getD t

/-- Drops the terminator of a stored line: a line feed, or a carriage return and a line feed. -/
def chomp (t : Text) : Text :=
  match dropSuffix? ['\n'] t with
  | none => t
  | some t => (dropSuffix? ['\r'] t).getD t

/-- The stored lines without their terminators. -/
def lines (t : Text) : List Text := (pieces t).map chomp

def feeds (t : Text) : Nat := t.count '\n'

end LineRepl.Text
