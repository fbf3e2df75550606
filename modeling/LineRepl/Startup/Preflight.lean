import LineRepl.Files.Tree
import LineRepl.Settings.Basic

/-!
A check before the session starts that the compiler can be found, so that a wrong name is reported
once and not after each line.
-/
namespace LineRepl

namespace FileTree

/-- Finds the file of a command. A command with a slash is a path; any other is looked for in the
directories of a search path, of which the empty ones do not count. -/
def findCommand (t : FileTree) (command : Text) (searchPath : Option Text) : Option Path :=
  if command.contains '/' then if t.isFile ⟨command⟩ then some ⟨command⟩ else none
  else
    let dirs := (Text.fields ':' (searchPath.getD [])).filter (!·.isEmpty)
    (dirs.map fun dir => Path.join ⟨dir⟩ ⟨command⟩).find? t.isFile

end FileTree

/-- Why the compiler cannot be called. -/
inductive PreflightFault
  | noCompiler
  | noStandard
  | missing (command : Text)
  | notOnPath (command : Text)
  deriving DecidableEq, Repr

def PreflightFault.message : PreflightFault → Text
  | noCompiler =>
    "No compiler configured. Set compiler.command in creppl.toml or CREPPL_COMPILER."
  | noStandard => "compiler.std must not be empty (for example `c++17`)."
  | missing command =>
    "compiler `" ++ command ++ "` does not exist. Check compiler.command or pass --compiler."
  | notOnPath command =>
    "compiler `" ++ command ++ "` was not found on PATH. Install it or pass --compiler."

/-- The first fault, if there is one. Blanks around the command do not count. -/
def CompilerSettings.preflight? (c : CompilerSettings) (t : FileTree) (searchPath : Option Text) :
    Option PreflightFault :=
  let command := Text.trim c.command
  if command.isEmpty then some .noCompiler
  else if c.standard.allBlank then some .noStandard
  else if (t.findCommand command searchPath).isSome then none
  else if command.contains '/' then some (.missing command)
  else some (.notOnPath command)

end LineRepl
