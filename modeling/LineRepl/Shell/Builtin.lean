import LineRepl.Shell.Pattern
import LineRepl.Shell.Tool

/-!
The commands that a shell carries out itself, apart from those that carry out other commands. Each
answers with its status. Wrong use of some of them ends the script.
-/
namespace LineRepl.Shell.Builtin

/-- Ends the script with a message. -/
def abort (message : Text) : Act Nat := do
  complain message
  throw (.exit 2)

/-- A number that is not negative, or the end of the script. -/
def natural (command t : Text) : Act Nat :=
  if t.isEmpty || !t.all Char.isDigit then abort (command ++ ": Illegal number: " ++ t)
  else pure (Nat.ofDigitChars 10 t 0)

/-- The number in the first argument, if there is one. -/
def count (command : Text) (default : Nat) : List Text → Act Nat
  | [] => pure default
  | t :: _ => natural command t

/-- Signals by name. -/
def signals : List (Text × Nat) :=
  [("HUP", 1), ("INT", 2), ("QUIT", 3), ("ILL", 4), ("TRAP", 5), ("ABRT", 6), ("BUS", 7),
    ("FPE", 8), ("KILL", 9), ("USR1", 10), ("SEGV", 11), ("USR2", 12), ("PIPE", 13), ("ALRM", 14),
    ("TERM", 15), ("STKFLT", 16), ("CHLD", 17), ("CONT", 18), ("STOP", 19), ("TSTP", 20),
    ("TTIN", 21),
    ("TTOU", 22), ("URG", 23), ("XCPU", 24), ("XFSZ", 25), ("VTALRM", 26), ("PROF", 27),
    ("WINCH", 28), ("IO", 29), ("PWR", 30), ("SYS", 31)].map fun (name, n) => (name.toList, n)

/-- Reads a signal by number or name, with or without `SIG` before it. -/
def signal? (t : Text) : Option Nat :=
  if !t.isEmpty && t.all Char.isDigit then some (Nat.ofDigitChars 10 t 0)
  else
    let t := t.map Char.toUpper
    signals.lookup (if ("SIG".toList).isPrefixOf t then t.drop 3 else t)

/-- What a signal does to a process that does nothing about it. -/
def deliver (signal : Nat) : Act Nat :=
  if signal = 0 || [17, 18, 23, 28].contains signal then pure 0
  else if [19, 20, 21, 22].contains signal then throw .endless
  else throw (.killed signal)

/-- Sends a signal. No process but the one that sends it is there. -/
def send (signal : Nat) (targets : List Text) : Act Nat :=
  Tool.forEach (fun t =>
    if integer? t = some (Process.number : Int) || integer? t = some 0 then deliver signal
    else do
      complain "kill: No such process"
      pure 1) targets

def kill (args : List Text) : Act Nat :=
  match args with
  | ['-', 's'] :: name :: targets => match signal? name with
    | some n => send n targets
    | none => do
      complain ("kill: invalid signal number or name: " ++ name)
      pure 2
  | ['-', '-'] :: targets => send 15 targets
  | ('-' :: name) :: targets => match signal? name with
    | some n => send n targets
    | none => do
      complain ("kill: Illegal option -" ++ name.take 1)
      pure 2
  | targets => send 15 targets

/-- Splits `name=value`. -/
def definition (t : Text) : Text × Option Text :=
  match Text.splitFirst '=' t with
  | some (name, value) => (name, some value)
  | none => (t, none)

def exportVars (args : List Text) : Act Nat := do
  args.forM fun a =>
    let (name, value) := definition a
    modify fun p =>
      let p := { p with exported := name :: p.exported.filter (· != name) }
      match value with
      | some v => p.assign name v
      | none => p
  pure 0

def unset (args : List Text) : Act Nat := do
  modify fun p => { p with vars := p.vars.filter fun v => !args.contains v.1 }
  pure 0

/-- Sets options and arguments. -/
def setOptions : List Text → Act Nat
  | [] => pure 0
  | ['-', '-'] :: args => do
    modify fun p => { p with args }
    pure 0
  | ('-' :: letters) :: rest => do
    modify fun p => { p with strict := p.strict || letters.contains 'e' }
    setOptions rest
  | ('+' :: letters) :: rest => do
    modify fun p => { p with strict := p.strict && !letters.contains 'e' }
    setOptions rest
  | args => do
    modify fun p => { p with args }
    pure 0

/-- Gives fields to names in order; the last name takes all that is left. -/
def distribute : List Text → Text → List (Text × Text)
  | [], _ => []
  | [name], t => [(name, (t.reverse.dropWhile fun c => c = ' ' || c = '\t').reverse)]
  | name :: names, t =>
    let isSpace := fun c => c = ' ' || c = '\t'
    (name, t.takeWhile (!isSpace ·)) ::
      distribute names ((t.dropWhile (!isSpace ·)).dropWhile isSpace)

/-- Reads a line of the input into variables. -/
def readVars (args : List Text) : Act Nat := do
  let names := args.filter fun a => a.head? != some '-'
  let p ← get
  let line := p.input.takeWhile (· ≠ '\n')
  let ended := line.length < p.input.length
  let values := distribute names (line.dropWhile fun c => c = ' ' || c = '\t')
  set (values.foldl (fun p (name, value) => Process.assign name value p)
    { p with input := p.input.drop (line.length + 1) })
  pure (if ended then 0 else 1)

def shift (args : List Text) : Act Nat := do
  let n ← count "shift" 1 args
  let p ← get
  if p.args.length < n then abort "shift: can't shift that many"
  else do
    set { p with args := p.args.drop n }
    pure 0

def changeDirectory (args : List Text) : Act Nat := do
  let p ← get
  let dir := args.headD ((p.value? "HOME").getD [])
  match p.tree.locate (pathOf dir), p.tree.isDirectory (pathOf dir) with
  | .ok place, true => do
    set { p with tree := { p.tree with current := place } }
    pure 0
  | _, _ => do
    complain ("cd: can't cd to " ++ dir)
    pure 2

def printf : List Text → Act Nat
  | format :: args => do
    let w := Format.printf format args
    writeOut w.text
    w.faults.forM fun fault => complain ("printf: " ++ fault ++ ": expected numeric value")
    pure (if w.faults.isEmpty then 0 else 1)
  | [] => abort "printf: usage: printf format [arg ...]"

/-- The name of a command in its own messages. -/
def label (command : Text) : Act Text := do
  let p ← get
  pure (p.name ++ ": " ++ Text.decimal p.line ++ ": " ++ command)

/-- Leaves loops, of which there may be fewer than asked for. Outside loops nothing happens. -/
def leaveLoops (command : Text) (again : Bool) (args : List Text) : Act Nat := do
  let n ← count command 1 args
  let p ← get
  if min n p.loops = 0 then pure 0 else throw (.loop again (min n p.loops))

/-- The command of a name, if the shell carries it out itself. -/
def find? (name : Text) (args : List Text) : Option (Act Nat) :=
  match String.ofList name with
  | ":" => some (pure 0)
  | "true" => some (pure 0)
  | "false" => some (pure 1)
  | "echo" => some do writeOut (Format.echo args); pure 0
  | "printf" => some (printf args)
  | "test" => some do Tool.test (← label name) args
  | "[" => some do Tool.bracket (← label name) args
  | "exit" => some do
    let p ← get
    let n ← count "exit" p.status args
    throw (.exit (n % 256))
  | "return" => some do
    let p ← get
    let n ← count "return" p.status args
    throw (.back n)
  | "break" => some (leaveLoops "break" false args)
  | "continue" => some (leaveLoops "continue" true args)
  | "shift" => some (shift args)
  | "set" => some (setOptions args)
  | "export" => some (exportVars args)
  | "readonly" => some (exportVars args)
  | "local" => some (exportVars args)
  | "unset" => some (unset args)
  | "read" => some (readVars args)
  | "kill" => some (kill args)
  | "pwd" => some Tool.pwd
  | "cd" => some (changeDirectory args)
  | "trap" => some (pure 0)
  | "umask" => some (pure 0)
  | "wait" => some (pure 0)
  | _ => none

end LineRepl.Shell.Builtin
