import LineRepl.Buffer.Basic
import LineRepl.Command.Grammar

/-!
What a line does to the buffer, and what is left for the session to do. Program text is left to be
committed; so is the text of `ins` and `rep`, after the cursor and the mode are set for it.
-/
namespace LineRepl

/-- What the session does once the buffer has been changed. -/
inductive Action
  /-- Nothing; it prompts again. -/
  | done
  /-- It writes a text at the cursor, closes the program, builds and runs it. -/
  | commit (text : Text)
  | clearScreen
  | print (lines : List Text)
  /-- It shows the help and ends. -/
  | help
  | quit
  deriving DecidableEq, Repr

inductive DispatchError
  | command (e : CommandError)
  | buffer (e : BufferError)
  deriving DecidableEq, Repr

def DispatchError.message : DispatchError → String
  | command e => e.message
  | buffer e => s!"buffer: {e.message}"

namespace Statement

variable {σ : Type}

/-- The first line that `del` removes, and how many follow it. A single line takes the next one
with it. -/
def deletion (cursor : Nat) : Option LineArg → Nat × Nat
  | none => (cursor, 1)
  | some (.line n) => (n, 1)
  | some (.range first last) => (first, max (last - first) 1)

/-- Puts the cursor on the line of a statement that names one. -/
def aim (arg : Option LineArg) (b : Buffer σ) : Buffer σ :=
  match arg with
  | some (.line n) => b.setCursor n
  | _ => b

variable [TextStore σ]

/-- Removes lines, and puts the closing brace back when the last line left has none. -/
def runDelete (arg : Option LineArg) : Buffer.Action σ Unit := do
  let (start, size) := deletion (← get).cursor arg
  Buffer.deleteLines start size
  modify (Buffer.setCursor start)
  let last ← Buffer.lastLine
  unless last.contains Buffer.closingBrace do Buffer.reseal

/-- Applies a statement. `skeleton` is what `reset` restores. -/
def run (skeleton : Text) (s : Statement) : Buffer.Action σ Action :=
  match s.command with
  | .delete => do runDelete s.arg; pure .done
  | .goto => do modify (aim s.arg); pure .done
  | .insert => do
    modify fun b => (aim s.arg b).setMode .insert
    pure (.commit (s.body.getD []))
  | .replace => do
    modify fun b => (aim s.arg b).setMode .replace
    pure (.commit (s.body.getD []))
  | .clearScreen => pure .clearScreen
  | .print => Action.print <$> Buffer.listing
  | .reset => do Buffer.reset skeleton; pure .done
  | .help => pure .help
  | .quit => pure .quit

end Statement

namespace Buffer

variable {σ : Type} [TextStore σ]

/-- Takes one line: a statement is parsed and applied, anything else is text to commit. -/
def runLine (skeleton input : Text) : EStateM DispatchError (Buffer σ) LineRepl.Action := fun b =>
  if Statement.isStatement input then
    match Statement.parse input with
    | .error e => .error (.command e) b
    | .ok s => match s.run skeleton b with
      | .ok a b => .ok a b
      | .error e b => .error (.buffer e) b
  else .ok (.commit input) b

end Buffer
end LineRepl
