import LineRepl.Build.Duration
import LineRepl.Session.Workshop
import LineRepl.Settings.Load
import LineRepl.Shell.Run
import LineRepl.Store.Disk

/-!
Building the program and running it. The compiler is called with the language standard, the further
arguments, and the program and its source; what it built is then called without arguments. Either is
a process with a time limit.
-/
namespace LineRepl

namespace Shell

/-- Calls a program with arguments and an empty input. It has no output if it never ends, and a
negative exit code if a signal ended it. -/
def call (env : Environment) (program : Text) (args : List Text) :
    EStateM IoError FileTree (Option ExecOutput) := fun tree =>
  if (program :: args).any (·.contains '\x00') then
    .error ⟨.invalidInput, "nul byte found in provided data"⟩ tree
  else
    let vars := env.vars.map fun (name, value) => (ofText name, ofText value)
    let p : Process := { tree, vars, exported := vars.map (·.1) }
    let program := ofText program
    match start patience (p.candidates program) program (args.map ofText) p with
    | .error _ p => .ok none p.tree
    | .ok (.error e) p => .error e p.tree
    | .ok (.ok ending) p =>
      let stream := fun i => Bytes.lossyText (bytesOf (p.streams[i]?.getD #[]).toList)
      let exitCode : Int := match ending with
        | .code n => n
        | .signal _ => -1
      .ok (some { exitCode, stdout := stream 0, stderr := stream 1 }) p.tree

end Shell

/-- Arguments for building a program from a source file. -/
def CompilerSettings.arguments (c : CompilerSettings) (program source : Path) : List Text :=
  ("-std=" ++ c.standard) :: c.extraArgs ++ ["-o".toList, program.text, source.text]

/-- The surroundings of a session on a tree of files. -/
structure Workplace where
  store : FileStore
  env : Environment
  compiler : CompilerSettings
  program : Path
  /-- Seconds since 1970. -/
  secs : Nat := 0

namespace Workplace

def onStore {ε α : Type} (act : EStateM ε FileStore α) : EStateM ε Workplace α :=
  Attempt.within store (fun store w => { w with store }) act

def onTree {ε α : Type} (act : EStateM ε FileTree α) : EStateM ε Workplace α :=
  onStore (Attempt.within FileStore.tree (fun tree s => { s with tree }) act)

/-- Calls a program under the time limit, which is at least one second. -/
def call (env : Environment) (timeoutSecs : Nat) (program : Text) (args : List Text) :
    EStateM ToolchainError FileTree ExecOutput := fun tree =>
  match Shell.call env program args tree with
  | .error e tree => .error (.spawn (program ++ ": " ++ e.message)) tree
  | .ok output tree =>
    match Duration.within (max timeoutSecs 1 * 1000) program (output.map .ok) with
    | .ok output => .ok output tree
    | .error e => .error e tree

/-- Builds the program, and runs it if that succeeds. -/
def buildAndRun (source : Path) : EStateM ToolchainError Workplace RunReport := fun w =>
  let act : EStateM ToolchainError FileTree RunReport := do
    let build ← call w.env w.compiler.timeoutSecs w.compiler.command
      (w.compiler.arguments w.program source)
    if build.success then do
      let run ← call w.env w.compiler.timeoutSecs w.program.text []
      pure ⟨build, some run⟩
    else pure ⟨build, none⟩
  onTree act w

def appendLog (path : Path) (tag : LogTag) (text : Text) :
    EStateM IoError Workplace Unit := fun w =>
  onTree (Journal.append path w.secs tag text) w

instance : Workshop Workplace where
  load := onStore TextStore.load
  replace t := onStore (TextStore.replace t)
  append t := onStore (TextStore.append t)
  truncate size := onStore (TextStore.truncate size)
  readLineAt offset := onStore (TextStore.readLineAt offset)
  buildAndRun := buildAndRun
  appendLog := appendLog

end Workplace
end LineRepl
