import LineRepl.Text.Basic

/-!
Control sequences of a terminal: an escape character, a bracket, numbers and a letter. Columns and
rows count from 1 in them.
-/
namespace LineRepl.Escape

def sequence (body : Text) : Text := '\x1b' :: '[' :: body

/-- Moves to the first column of the row. -/
def firstColumn : Text := sequence ['1', 'G']

/-- Counts in a sequence are 16 bits wide. -/
def countLimit : Nat := 65535

/-- Moves right. A count of zero would still move by one column, so none is written. -/
def forward (columns : Nat) : Text :=
  if columns = 0 then [] else sequence (Text.decimal (min columns countLimit) ++ ['C'])

/-- Clears from the cursor to the end of the row. -/
def clearRest : Text := sequence ['K']

def clearScreen : Text := sequence ['2', 'J']

/-- Moves to the top left corner. -/
def home : Text := sequence ['1', ';', '1', 'H']

/-- Leaves the row for the first column of the next one. -/
def newRow : Text := ['\r', '\n']

/-- Colours by their number among the 256 of a terminal. -/
inductive Colour
  | cyan | grey | yellow | red
  deriving DecidableEq, Repr

def Colour.number : Colour → Nat
  | cyan => 14
  | grey => 8
  | yellow => 11
  | red => 9

/-- The sequences of a graphic rendition end in this letter. -/
def rendition (parameters : Text) : Text := sequence (parameters ++ ['m'])

def Colour.start (c : Colour) : Text :=
  rendition (['3', '8', ';', '5', ';'] ++ Text.decimal c.number)

def bold : Text := rendition ['1']

/-- Ends a colour only. -/
def defaultColour : Text := rendition ['3', '9']

/-- Ends all of a rendition. -/
def plain : Text := rendition ['0']

end LineRepl.Escape
