import LineRepl.Shell.Format
import LineRepl.Shell.Process

/-!
The programs of the system that scripts rely on. They are found by their place in the tree, and
each answers with its status.
-/
namespace LineRepl.Shell.Tool

def shells : List Text := ["sh", "dash", "bash"].map String.toList

def names : List Text :=
  shells ++ ["true", "false", "cat", "echo", "printf", "cp", "mv", "rm", "mkdir", "touch", "chmod",
    "sleep", "test", "[", "pwd", "seq", "head", "wc", "basename", "dirname",
    "env"].map String.toList

/-- The directories that tools stand in. -/
def directories : List (List Text) := [["bin".toList], ["usr".toList, "bin".toList]]

def at? (place : List Text) : Option Text :=
  if directories.contains place.dropLast then
    place.getLast?.bind fun name => if names.contains name then some name else none
  else none

def devices : List Text := ["dev".toList]

/-- The file that swallows all that is written to it. -/
def sinkPlace : List Text := devices ++ ["null".toList]

def install (t : FileTree) : FileTree :=
  let t := (devices :: ["usr".toList] :: directories).foldl (fun t d => t.put d .directory) t
  let t := t.put sinkPlace (.file [] false)
  directories.foldl (fun t d => names.foldl (fun t n => t.put (d ++ [n]) (.file [] true)) t) t

/-- Writes a message and answers with a failure. -/
def fail (tool message : Text) : Act Nat := do
  writeErr (tool ++ ": " ++ message ++ "\n")
  pure 1

def quote (t : Text) : Text := "'" ++ t ++ "'"

def missingOperand (tool what : Text) : Act Nat := do
  writeErr (tool ++ ": missing " ++ what ++ "\nTry '" ++ tool ++ " --help' for more information.\n")
  pure 1

/-- Arguments without those that begin with a hyphen, and the letters of those. -/
def flagsAndOperands (args : List Text) : Text × List Text :=
  let isFlag := fun (a : Text) => a.head? == some '-' && a.length > 1
  ((args.filter isFlag).flatten.filter (· ≠ '-'), args.filter (!isFlag ·))

/-- Carries out an action for each text; the answer is a failure if any of them fails. -/
def forEach (act : Text → Act Nat) : List Text → Act Nat
  | [] => pure 0
  | t :: ts => do
    let a ← act t
    let b ← forEach act ts
    pure (max a b)

/-- The text of a file, or of the standard input for a hyphen. -/
def reading (tool name : Text) : Act (Option Text) := do
  let p ← get
  if name = ['-'] then
    set { p with input := [] }
    pure (some p.input)
  else match p.tree.bytesOf (pathOf name) with
    | .ok data => pure (some (ofBytes data))
    | .error e => do
      discard (fail tool (name ++ ": " ++ reason e))
      pure none

def cat (args : List Text) : Act Nat :=
  forEach (fun name => do
    match ← reading "cat" name with
    | some t => do writeOut t; pure 0
    | none => pure 1) (if args.isEmpty then [['-']] else args)

/-- Where a copy goes: into a directory it goes under its own name. -/
def copyTarget (tree : FileTree) (source target : Text) : Path :=
  let path := pathOf target
  if tree.isDirectory path then path.join ⟨((pathOf source).fileName?).getD []⟩ else path

/-- Copies a file. A new file can be run if the old one can. -/
def copy (tool source target : Text) : Act Nat := do
  let p ← get
  match p.tree.stat (pathOf source) with
  | .error e => fail tool ("cannot stat " ++ quote source ++ ": " ++ reason e)
  | .ok .directory => fail tool ("-r not specified; omitting directory " ++ quote source)
  | .ok (.file data runnable) =>
    let path := copyTarget p.tree source target
    let fresh := !p.tree.pathExists path
    match ← onTree (FileTree.writeFile path data) with
    | .error e =>
      fail tool ("cannot create regular file " ++ quote (ofText path.text) ++ ": " ++ reason e)
    | .ok _ =>
      modify fun p => match fresh, p.tree.locate path with
        | true, .ok place => { p with tree := p.tree.put place (.file data runnable) }
        | _, _ => p
      pure 0

def cp (args : List Text) : Act Nat :=
  match (flagsAndOperands args).2 with
  | [] => missingOperand "cp" "file operand"
  | [source] => do
    writeErr ("cp: missing destination file operand after " ++ quote source ++
      "\nTry 'cp --help' for more information.\n")
    pure 1
  | operands => forEach (fun source => copy "cp" source (operands.getLastD [])) operands.dropLast

/-- Takes a file or a directory with all below it out of the tree. -/
def remove (place : List Text) : Act Unit :=
  modify fun p => { p with tree :=
    { p.tree with nodes := p.tree.nodes.filter fun node => !place.isPrefixOf node.1 } }

def mv (args : List Text) : Act Nat :=
  match (flagsAndOperands args).2 with
  | [source, target] => do
    let p ← get
    match p.tree.locate (pathOf source), p.tree.stat (pathOf source) with
    | .ok place, .ok node =>
      match p.tree.locate (copyTarget p.tree source target) with
      | .ok goal => do
        remove place
        modify fun p => { p with tree := p.tree.put goal node }
        pure 0
      | .error e => fail "mv" ("cannot move " ++ quote source ++ " to " ++ quote target ++ ": " ++
          reason e)
    | _, .error e => fail "mv" ("cannot stat " ++ quote source ++ ": " ++ reason e)
    | .error e, _ => fail "mv" ("cannot stat " ++ quote source ++ ": " ++ reason e)
  | _ => missingOperand "mv" "file operand"

def rm (args : List Text) : Act Nat :=
  let (flags, operands) := flagsAndOperands args
  forEach (fun name => do
    let p ← get
    match p.tree.locate (pathOf name), p.tree.stat (pathOf name) with
    | .ok place, .ok node =>
      if node = .directory && !flags.contains 'r' then
        fail "rm" ("cannot remove " ++ quote name ++ ": Is a directory")
      else do remove place; pure 0
    | _, .error e =>
      if flags.contains 'f' then pure 0
      else fail "rm" ("cannot remove " ++ quote name ++ ": " ++ reason e)
    | .error _, .ok _ => pure 1) operands

def mkdir (args : List Text) : Act Nat :=
  let (flags, operands) := flagsAndOperands args
  forEach (fun name => do
    let act := if flags.contains 'p' then FileTree.makeDirectories else FileTree.makeDirectory
    match ← onTree (act (pathOf name)) with
    | .ok _ => pure 0
    | .error e => fail "mkdir" ("cannot create directory " ++ quote name ++ ": " ++ reason e))
    operands

def touch (args : List Text) : Act Nat :=
  forEach (fun name => do
    let p ← get
    if p.tree.pathExists (pathOf name) then pure 0
    else match ← onTree (FileTree.appendFile (pathOf name) []) with
      | .ok _ => pure 0
      | .error e => fail "touch" ("cannot touch " ++ quote name ++ ": " ++ reason e))
    (flagsAndOperands args).2

/-- Whether a mode lets a file be run, if it says anything about that. -/
def runnable? (mode : Text) : Option Bool :=
  if mode.all Format.isOctal then some (mode.any fun c => (c.toNat - '0'.toNat) % 2 == 1)
  else if !mode.contains 'x' then none
  else some (!mode.contains '-')

def chmod : List Text → Act Nat
  | mode :: names =>
    forEach (fun name => do
      let p ← get
      match p.tree.locate (pathOf name), p.tree.stat (pathOf name) with
      | .ok place, .ok (.file data old) => do
        set { p with tree := p.tree.put place (.file data ((runnable? mode).getD old)) }
        pure 0
      | _, .error e => fail "chmod" ("cannot access " ++ quote name ++ ": " ++ reason e)
      | _, _ => pure 0) names
  | [] => missingOperand "chmod" "operand"

def seq (args : List Text) : Act Nat :=
  let count := fun (first step last : Int) =>
    if step = 0 then 0 else (Int.fdiv (last - first) step + 1).toNat
  let write := fun (first step last : Int) => do
    writeOut ((List.range (count first step last)).flatMap fun (i : Nat) =>
      (toString (first + step * (i : Int))).toList ++ ['\n'])
    pure 0
  match args.map integer? with
  | [some last] => write 1 1 last
  | [some first, some last] => write first 1 last
  | [some first, some step, some last] => write first step last
  | _ => missingOperand "seq" "operand"

/-- The number that a flag gives, attached or as the next argument, and the arguments without it. -/
def numberFlag (flag : Char) : List Text → Option Nat × List Text
  | [] => (none, [])
  | a :: rest =>
    let number := fun (t : Text) =>
      if t.isEmpty || !t.all Char.isDigit then none else some (Nat.ofDigitChars 10 t 0)
    match a, rest with
    | ['-', c], n :: more =>
      if c = flag then (number n, more)
      else let (found, others) := numberFlag flag rest; (found, a :: others)
    | '-' :: c :: n, _ =>
      if c = flag then (number n, rest)
      else let (found, others) := numberFlag flag rest; (found, a :: others)
    | _, _ => let (found, others) := numberFlag flag rest; (found, a :: others)

def head (args : List Text) : Act Nat := do
  let (bytes, args) := numberFlag 'c' args
  let (lines, args) := numberFlag 'n' args
  let start := fun (t : Text) => match bytes with
    | some n => t.take n
    | none => ((Text.pieces t).take (lines.getD 10)).flatten
  forEach (fun name => do
    match ← reading "head" name with
    | some t => do writeOut (start t); pure 0
    | none => pure 1) (if args.isEmpty then [['-']] else args)

/-- Counts of one kind; without a file the number stands alone. -/
def wc (args : List Text) : Act Nat := do
  let (flags, operands) := flagsAndOperands args
  forEach (fun name => do
    match ← reading "wc" name with
    | some t => do
      let count := if flags.contains 'l' then Text.feeds t else t.length
      writeOut (Text.decimal count ++ (if operands.isEmpty then [] else ' ' :: name) ++ ['\n'])
      pure 0
    | none => pure 1) (if operands.isEmpty then [['-']] else operands)

def basename : List Text → Act Nat
  | name :: suffix => do
    let base := ((pathOf name).fileName?.map ofText).getD name
    let cut := (Text.dropSuffix? (suffix.headD []) base).getD base
    writeOut ((if cut.isEmpty then base else cut) ++ ['\n'])
    pure 0
  | [] => missingOperand "basename" "operand"

def dirname : List Text → Act Nat
  | name :: _ => do
    let dir := match (pathOf name).parent? with
      | some ⟨[]⟩ => ['.']
      | some p => ofText p.text
      | none => name
    writeOut (dir ++ ['\n'])
    pure 0
  | [] => missingOperand "dirname" "operand"

def printf : List Text → Act Nat
  | format :: args => do
    let w := Format.printf format args
    writeOut w.text
    w.faults.forM fun fault =>
      writeErr ("printf: " ++ quote fault ++ ": expected a numeric value\n")
    pure (if w.faults.isEmpty then 0 else 1)
  | [] => missingOperand "printf" "operand"

def pwd : Act Nat := do
  let p ← get
  writeOut ('/' :: ofText (Path.ofNames p.tree.current) ++ ['\n'])
  pure 0

def test (tool : Text) (args : List Text) : Act Nat := do
  let p ← get
  match Condition.value p.tree args with
  | .ok b => pure (if b then 0 else 1)
  | .error message => do
    writeErr (tool ++ ": " ++ message ++ "\n")
    pure 2

/-- Decides a condition between brackets. -/
def bracket (tool : Text) (args : List Text) : Act Nat :=
  if args.getLast? = some [']'] then test tool args.dropLast
  else do
    writeErr (tool ++ ": missing ]\n")
    pure 2

/-- Runs a tool that is no shell. -/
def run (name : Text) (args : List Text) : Act Nat :=
  match String.ofList name with
  | "true" => pure 0
  | "sleep" => pure 0
  | "cat" => cat args
  | "echo" => do writeOut (Format.echoProgram args); pure 0
  | "printf" => printf args
  | "cp" => cp args
  | "mv" => mv args
  | "rm" => rm args
  | "mkdir" => mkdir args
  | "touch" => touch args
  | "chmod" => chmod args
  | "test" => test "test" args
  | "[" => bracket "[" args
  | "pwd" => pwd
  | "seq" => seq args
  | "head" => head args
  | "wc" => wc args
  | "basename" => basename args
  | "dirname" => dirname args
  | "env" => do
    let p ← get
    writeOut (p.environment.flatMap fun (name, value) => name ++ '=' :: value ++ ['\n'])
    pure 0
  | _ => pure 1

end LineRepl.Shell.Tool
