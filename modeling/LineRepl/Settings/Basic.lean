import LineRepl.Failure
import LineRepl.Files.Path
import LineRepl.Terminal.History
import LineRepl.Text.Blank

/-!
The settings of the program: where a session keeps its files, how the compiler is called, and
whether output is coloured. Every setting has a default, and a few have values that no session can
run with.
-/
namespace LineRepl

/-- Where a session keeps its files and how it starts. -/
structure SessionSettings where
  /-- Holds the source files, the programs and the log. -/
  workdir : Path
  /-- Name of the source file when none is given. -/
  defaultFile : Text := "main.cpp".toList
  /-- Number of lines that the history holds. -/
  historySize : Nat := HistoryRing.defaultCapacity
  /-- Name of the log in the working directory. -/
  logFile : Text := "crepl-log.txt".toList
  logOutput : Bool := true
  /-- What a fresh source file holds. -/
  skeleton : Text := "#include <iostream>\n\nint main() \x7b\n\n\x7d\n".toList
  deriving DecidableEq, Repr

namespace SessionSettings

def sourceDir (s : SessionSettings) : Path := s.workdir.join "src"

def programDir (s : SessionSettings) : Path := s.workdir.join "bin"

def logPath (s : SessionSettings) : Path := s.workdir.join ⟨s.logFile⟩

end SessionSettings

/-- How the compiler is called. -/
structure CompilerSettings where
  command : Text := "g++".toList
  /-- The language standard. -/
  standard : Text := "c++17".toList
  extraArgs : List Text := []
  /-- Limit for the build and for the run, each. -/
  timeoutSecs : Nat := 30
  deriving DecidableEq, Repr

structure Settings where
  session : SessionSettings
  compiler : CompilerSettings := {}
  colour : Bool := true
  deriving DecidableEq, Repr

/-- What makes settings unfit to run with. -/
inductive SettingsFault
  | noHistory | noTime | noCompiler | noStandard | noFile
  deriving DecidableEq, Repr

def SettingsFault.message : SettingsFault → String
  | noHistory => "session.history_size must be at least 1"
  | noTime => "compiler.timeout_secs must be at least 1"
  | noCompiler => "compiler.command must not be empty"
  | noStandard => "compiler.std must not be empty"
  | noFile => "session.default_file must not be empty"

namespace Settings

/-- The defaults of a user with a home directory. -/
def default (home : Path) : Settings := { session := { workdir := home.join ".creppl" } }

/-- The first fault, in the order in which they are reported. -/
def fault? (s : Settings) : Option SettingsFault :=
  if s.session.historySize = 0 then some .noHistory
  else if s.compiler.timeoutSecs = 0 then some .noTime
  else if s.compiler.command.allBlank then some .noCompiler
  else if s.compiler.standard.allBlank then some .noStandard
  else if s.session.defaultFile.allBlank then some .noFile
  else none

end Settings

inductive SettingsError
  /-- A settings file that was asked for could not be read. -/
  | io (e : IoError)
  /-- A settings file is no TOML document, or a setting in it has the wrong type. -/
  | malformed
  /-- A setting has a value that the session cannot run with. -/
  | invalid (reason : String)
  deriving DecidableEq, Repr

def SettingsError.message : SettingsError → String
  | io e => s!"io: {e.message}"
  | malformed => "toml: the settings file is not valid"
  | invalid reason => s!"invalid config: {reason}"

/-- Refuses settings with a fault. -/
def Settings.check (s : Settings) : Except SettingsError Unit :=
  match s.fault? with
  | some f => .error (.invalid f.message)
  | none => .ok ()

end LineRepl
