import LineRepl.Text.Basic

/-!
The commands that a line can give in place of program text, with the texts that the help shows.
-/
namespace LineRepl

inductive Command
  | delete | goto | help | clearScreen | insert | print | quit | replace | reset
  deriving DecidableEq, Repr

namespace Command

/-- All commands, in the order of the help. -/
def all : List Command :=
  [delete, insert, replace, goto, clearScreen, print, reset, help, quit]

theorem mem_all (c : Command) : c ∈ all := by cases c <;> decide

/-- The word typed after the sigil. -/
def name : Command → String
  | delete => "del"
  | goto => "goto"
  | help => "help"
  | clearScreen => "cls"
  | insert => "ins"
  | print => "print"
  | quit => "quit"
  | replace => "rep"
  | reset => "reset"

/-- Whether two texts differ at most in the case of ASCII letters. -/
def sameUpToCase (a b : Text) : Bool := a.map Char.toLower == b.map Char.toLower

def ofToken? (token : Text) : Option Command :=
  all.find? fun c => sameUpToCase c.name.toList token

def usage : Command → String
  | delete => "$del [n | n-m]"
  | goto => "$goto n"
  | insert => "$ins [n] [code]"
  | replace => "$rep [n] [code]"
  | help => "$help"
  | clearScreen => "$cls"
  | print => "$print"
  | quit => "$quit"
  | reset => "$reset"

def description : Command → String
  | delete => "Delete line n, or lines n through m. The cursor moves to line n when it exists."
  | goto => "Move the cursor to line n."
  | insert => "Insert code before line n, or before the current line when n is omitted."
  | replace => "Replace line n, or the current line, with code. Applies to the next write only."
  | help => "Show this help and end the session."
  | clearScreen => "Clear the screen."
  | print => "Print the numbered contents of the file."
  | quit => "Build and run one last time, then exit."
  | reset => "Restore the file to its starting skeleton."

end Command
end LineRepl
