import LineRepl.Attempt
import LineRepl.Command.Dispatch
import LineRepl.Session.Workshop
import LineRepl.Terminal.Screen
import LineRepl.Terminal.Sink

/-!
What a session does with one line. Program text is committed: it is written at the cursor, the
program is closed, built and run, and the outcome is shown and logged. A failure of the store, the
tools or the log is shown as one message and the session goes on; only a failure to show something
ends it.
-/
namespace LineRepl

structure SessionOptions where
  /-- The file that the tools build. -/
  source : Path
  /-- What `reset` restores. -/
  skeleton : Text
  /-- Where output is logged, if it is. -/
  log : Option Path := none
  colour : Bool := false

inductive SessionError
  /-- Raw mode could not be entered or left. -/
  | terminal (e : IoError)
  /-- The output could not be written. -/
  | output (e : IoError)
  /-- The buffer could not be set up. -/
  | buffer (e : BufferError)
  deriving DecidableEq, Repr

def SessionError.message : SessionError → String
  | terminal e => s!"terminal: {e.message}"
  | output e => s!"output: {e.message}"
  | buffer e => s!"buffer: {e.message}"

structure Session (ω : Type) where
  buffer : Buffer ω
  options : SessionOptions
  output : Sink := {}

/-- Whether the session prompts again. -/
inductive Flow
  | proceed | stop
  deriving DecidableEq, Repr

namespace Session

open Attempt

variable {ω ε α : Type}

abbrev Action (ω : Type) := EStateM SessionError (Session ω)

def display (text : Text) : Action ω Unit :=
  (within output (fun output s => { s with output }) (Sink.print text)).adaptExcept .output

/-- Shows a page in the colour setting of the session. -/
def present (v : Screen.Showing) : Action ω Unit := do display (v.page (← get).options.colour)

def diagnose (message : Text) : Action ω Unit := present (.error message)

def showBanner : Action ω Unit := present .banner

/-- Runs an action on the buffer. Its failure is no failure of the session. -/
def onBuffer (act : EStateM ε (Buffer ω) α) : Action ω (Except ε α) :=
  caught (within buffer (fun buffer s => { s with buffer }) act)

/-- Runs an action on the surroundings. Its failure is no failure of the session. -/
def onSurroundings (act : EStateM ε ω α) : Action ω (Except ε α) :=
  onBuffer (within Buffer.store (fun store b => { b with store }) act)

/-- Writes a text as a line at the cursor and closes the program. -/
def enter [TextStore ω] (text : Text) : Buffer.Action ω Unit := do
  Buffer.write (text ++ ['\n'])
  Buffer.reseal

variable [Workshop ω]

/-- Adds to the log, if there is one. -/
def appendLog (tag : LogTag) (text : Text) : Action ω (Except (Path × IoError) Unit) := do
  match (← get).options.log with
  | none => pure (.ok ())
  | some path =>
    let added ← onSurroundings (Workshop.appendLog path tag text)
    pure (added.mapError (path, ·))

/-- Adds to the log. A failure is only a warning. -/
def log (tag : LogTag) (text : Text) : Action ω Unit := do
  match ← appendLog tag text with
  | .ok _ => pure ()
  | .error (path, e) => present (.warning ("could not write " ++ path.text ++ ": " ++ e.message))

def reportRun (run : ExecOutput) : Action ω Unit := do
  let shown := run.stdout ++ run.stderr
  present (.programOutput shown)
  log .output shown
  unless run.success do
    present (.warning ("program exited with status " ++ toString run.exitCode))

def report (r : RunReport) : Action ω Unit := do
  present (.buildErrors r.build.stderr)
  log .error r.build.stderr
  if let some run := r.run then reportRun run

/-- Has the tools build and run the program. -/
def callTools : Action ω (Except ToolchainError RunReport) := do
  onSurroundings (Workshop.buildAndRun (← get).options.source)

/-- Builds and runs the program, and tells what came of it. -/
def build : Action ω Unit := do
  match ← callTools with
  | .ok r => report r
  | .error e => diagnose e.message

/-- Writes a text, closes the program, and builds and runs it. -/
def commit (text : Text) : Action ω Unit := do
  match ← onBuffer (enter text) with
  | .ok _ => build
  | .error e => diagnose e.message.toList

/-- The last commit before leaving, of an empty line. -/
def finalize : Action ω Unit := do
  commit []
  display ['\n']

/-- Does what a line asked for, once the buffer has been changed. -/
def perform : LineRepl.Action → Action ω Flow
  | .done => pure .proceed
  | .commit text => do commit text; pure .proceed
  | .clearScreen => do present .cleared; pure .proceed
  | .print lines => do present (.listing lines); pure .proceed
  | .help => do present .help; finalize; pure .stop
  | .quit => do finalize; pure .stop

/-- Applies one submitted line to the buffer. -/
def applyLine (line : Text) : Action ω (Except DispatchError LineRepl.Action) := do
  onBuffer (Buffer.runLine (← get).options.skeleton line)

/-- Handles one submitted line. -/
def handleLine (line : Text) : Action ω Flow := do
  match ← applyLine line with
  | .ok action => perform action
  | .error e => diagnose e.message.toList; pure .proceed

end Session
end LineRepl
