import LineRepl.Build.Journal
import LineRepl.Build.Report
import LineRepl.Store.Basic

/-!
The surroundings of a session: the store of its program text, the tools that build and run the
program, and the log.
-/
namespace LineRepl

class Workshop (ω : Type) extends TextStore ω where
  /-- Builds the source file at a path and runs what was built. -/
  buildAndRun : Path → EStateM ToolchainError ω RunReport
  /-- Adds an entry to the log at a path. -/
  appendLog : Path → LogTag → Text → EStateM IoError ω Unit

end LineRepl
