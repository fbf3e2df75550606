import LineRepl.Text.Basic

/-!
What comes of building a program and running it.
-/
namespace LineRepl

/-- A process that has ended. -/
structure ExecOutput where
  /-- The exit code, or -1 after a signal. -/
  exitCode : Int := 0
  stdout : Text := []
  stderr : Text := []
  deriving DecidableEq, Repr

def ExecOutput.success (o : ExecOutput) : Bool := o.exitCode == 0

structure RunReport where
  build : ExecOutput := {}
  /-- There only if the build succeeded. -/
  run : Option ExecOutput := none
  deriving DecidableEq, Repr

inductive ToolchainError
  /-- The process could not be started. -/
  | spawn (message : Text)
  /-- The process outlived its limit. -/
  | timedOut (message : Text)
  deriving DecidableEq, Repr

def ToolchainError.message : ToolchainError → Text
  | spawn m => "spawn failed: " ++ m
  | timedOut m => "timed out: " ++ m

end LineRepl
