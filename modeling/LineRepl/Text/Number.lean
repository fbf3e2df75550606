import LineRepl.Text.Basic

/-!
Line numbers as they are typed: ASCII digits, with any number of leading zeros, that name a value
below the word limit.
-/
namespace LineRepl.Text

/-- One or more ASCII digits. -/
def isNumber (t : Text) : Bool := !t.isEmpty && t.all Char.isDigit

/-- Two numbers with a hyphen between them. -/
def isRange (t : Text) : Bool :=
  match splitFirst '-' t with
  | some (a, b) => isNumber a && isNumber b
  | none => false

/-- The value of a run of digits. -/
def value (t : Text) : Nat := Nat.ofDigitChars 10 t 0

def number? (t : Text) : Option Nat :=
  if isNumber t && value t < wordLimit then some (value t) else none

end LineRepl.Text
