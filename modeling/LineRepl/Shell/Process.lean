import LineRepl.Attempt
import LineRepl.Files.Tree
import LineRepl.Shell.Condition
import LineRepl.Shell.Syntax
import LineRepl.Text.Lines

/-!
The state of a process that carries out a script: the files it works on, what it has written, its
variables and arguments. Output goes to collecting streams or to files; a stream can be collected
apart, which is how the output of a command becomes a value.
-/
namespace LineRepl.Shell

inductive Target
  /-- One of the collected streams. -/
  | stream (index : Nat)
  | file (place : List Text)
  | nowhere
  deriving DecidableEq, Repr

/-- Why a script does not simply go on. -/
inductive Stop
  | exit (code : Nat)
  | killed (signal : Nat)
  /-- Leaves so many loops, or begins the last of them again. -/
  | loop (again : Bool) (levels : Nat)
  /-- Leaves a function. -/
  | back (code : Nat)
  /-- The process goes on for ever. -/
  | endless
  deriving DecidableEq, Repr

inductive Ending
  | code (n : Nat)
  | signal (n : Nat)
  deriving DecidableEq, Repr

structure Process where
  tree : FileTree
  /-- The collected streams; the first is the standard output, the second the standard error. -/
  streams : Array (Array Char) := #[#[], #[]]
  out : Target := .stream 0
  err : Target := .stream 1
  /-- What is left of the standard input. -/
  input : Text := []
  vars : List (Text × Text) := []
  /-- Names of the variables that other programs are given. -/
  exported : List Text := []
  name : Text := []
  args : List Text := []
  status : Nat := 0
  /-- Whether a failure ends the script. -/
  strict : Bool := false
  functions : List (Text × Script) := []
  line : Nat := 1
  /-- How many loops the command at hand stands in. -/
  loops : Nat := 0
  /-- How many functions and programs have called each other to come here. -/
  depth : Nat := 0

abbrev Act := EStateM Stop Process

namespace Process

/-- The number of every process. -/
def number : Nat := 4242

def assign (name value : Text) (p : Process) : Process :=
  { p with vars := (name, value) :: p.vars.filter (·.1 != name) }

/-- The value of a parameter that stands for one text. -/
def value? (p : Process) (name : Text) : Option Text :=
  match String.ofList name with
  | "#" => some (Text.decimal p.args.length)
  | "?" => some (Text.decimal p.status)
  | "$" => some (Text.decimal number)
  | "!" => none
  | "-" => some []
  | "0" => some p.name
  | "@" => if p.args.isEmpty then none else some (List.intercalate [' '] p.args)
  | "*" => if p.args.isEmpty then none else some (List.intercalate [' '] p.args)
  | _ =>
    if name.all Char.isDigit then p.args[Nat.ofDigitChars 10 name 0 - 1]?
    else p.vars.lookup name

def writeTo (target : Target) (t : Text) (p : Process) : Process :=
  match target with
  | .stream i => { p with streams := p.streams.modify i (·.appendList t) }
  | .nowhere => p
  | .file place =>
    match p.tree.node? place with
    | some (.file data runnable) =>
      { p with tree := p.tree.put place (.file (data ++ bytesOf t) runnable) }
    | some .directory => p
    | none => { p with tree := p.tree.put place (.file (bytesOf t) false) }

/-- The variables that other programs are given. -/
def environment (p : Process) : List (Text × Text) :=
  p.vars.filter fun v => p.exported.contains v.1

end Process

def writeOut (t : Text) : Act Unit := modify fun p => p.writeTo p.out t

def writeErr (t : Text) : Act Unit := modify fun p => p.writeTo p.err t

def setStatus (n : Nat) : Act Unit := modify fun p => { p with status := n }

/-- A message about the command at hand. -/
def complain (t : Text) : Act Unit := do
  let p ← get
  writeErr (p.name ++ ": " ++ Text.decimal p.line ++ ": " ++ t ++ "\n")

/-- The text of an error, without its number. -/
def reason (e : IoError) : Text :=
  (Text.dropSuffix? [' '] ((Text.beforeLast '(' e.message.toList).getD e.message.toList)).getD
    e.message.toList

def onTree {α : Type} (act : FileTree.Action α) : Act (Except IoError α) :=
  Attempt.caught (Attempt.within Process.tree (fun tree p => { p with tree }) act)

end LineRepl.Shell
