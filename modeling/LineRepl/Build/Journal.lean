import LineRepl.Build.Date
import LineRepl.Files.Tree
import LineRepl.Text.Blank

/-!
The log of compiler diagnostics and program output. It only grows, by dated entries that each end in
a line feed; text that is all blank makes no entry.
-/
namespace LineRepl

inductive LogTag
  | error | output
  deriving DecidableEq, Repr

def LogTag.label : LogTag → String
  | error => "[Error]"
  | output => "[Output]"

namespace Journal

/-- An entry made at a number of seconds since 1970. -/
def entry (tag : LogTag) (text : Text) (secs : Nat) : Text :=
  let line := Date.format secs ++ " " ++ tag.label ++ ": " ++ text
  if line.getLast? = some '\n' then line else line ++ ['\n']

/-- Adds an entry to the log at a path. The directory above it is made when it is missing. -/
def append (path : Path) (secs : Nat) (tag : LogTag) (text : Text) : FileTree.Action Unit := do
  unless text.allBlank do
    if let some dir := path.parent? then FileTree.makeDirectories dir
    FileTree.appendFile path (entry tag text secs).utf8

end Journal
end LineRepl
