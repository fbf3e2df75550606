import LineRepl.Settings.Basic
import LineRepl.Toml.Value

/-!
Reading settings from a TOML table. What the table lacks keeps its default, what it has beyond the
settings is ignored, and a value of a wrong type makes the whole table unreadable.
-/
namespace LineRepl

namespace Toml

def text? : Toml → Option Text
  | text t => some t
  | _ => none

def path? (v : Toml) : Option Path := v.text?.map Path.mk

def boolean? : Toml → Option Bool
  | boolean b => some b
  | _ => none

/-- A number that is not negative. -/
def natural? : Toml → Option Nat
  | integer n => if 0 ≤ n then some n.toNat else none
  | _ => none

/-- An array of strings. -/
def texts? : Toml → Option (List Text)
  | array items => items.mapM text?
  | tables members => members.mapM text?
  | _ => none

/-- The fields of a section by name. A section is a table, or an array that gives the fields in
their order; a date is a section without fields. -/
def fields? (names : List Text) : Toml → Option (Text → Option Toml)
  | table _ entries => some fun name => entries.lookup name
  | array items => some fun name => (names.idxOf? name).bind fun i => items[i]?
  | tables members => some fun name => (names.idxOf? name).bind fun i => members[i]?
  | dateTime => some fun _ => none
  | _ => none

end Toml

namespace Settings

/-- Reads a value that may be missing. -/
def reading {α : Type} (read : Toml → Option α) (missing : α) : Option Toml → Option α
  | none => some missing
  | some v => read v

/-- Names of fields in their order. -/
def fieldNames (names : List String) : List Text := names.map String.toList

def readSession (d : SessionSettings) (v : Toml) : Option SessionSettings := do
  let get ← v.fields? (fieldNames
    ["workdir", "default_file", "history_size", "log_file", "log_output", "skeleton"])
  let workdir ← reading Toml.path? d.workdir (get "workdir")
  let defaultFile ← reading Toml.text? d.defaultFile (get "default_file")
  let historySize ← reading Toml.natural? d.historySize (get "history_size")
  let logFile ← reading Toml.text? d.logFile (get "log_file")
  let logOutput ← reading Toml.boolean? d.logOutput (get "log_output")
  let skeleton ← reading Toml.text? d.skeleton (get "skeleton")
  pure { workdir, defaultFile, historySize, logFile, logOutput, skeleton }

def readCompiler (d : CompilerSettings) (v : Toml) : Option CompilerSettings := do
  let get ← v.fields? (fieldNames ["command", "std", "extra_args", "timeout_secs"])
  let command ← reading Toml.text? d.command (get "command")
  let standard ← reading Toml.text? d.standard (get "std")
  let extraArgs ← reading Toml.texts? d.extraArgs (get "extra_args")
  let timeoutSecs ← reading Toml.natural? d.timeoutSecs (get "timeout_secs")
  pure { command, standard, extraArgs, timeoutSecs }

def readColour (d : Bool) (v : Toml) : Option Bool := do
  let get ← v.fields? (fieldNames ["color"])
  reading Toml.boolean? d (get "color")

/-- Reads the settings in a document over the defaults. -/
def ofEntries (d : Settings) (entries : Toml.Entries) : Option Settings := do
  let get := fun name : Text => entries.lookup name
  let session ← reading (readSession d.session) d.session (get "session")
  let compiler ← reading (readCompiler d.compiler) d.compiler (get "compiler")
  let colour ← reading (readColour d.colour) d.colour (get "display")
  pure { session, compiler, colour }

end Settings
end LineRepl
