import LineRepl.Files.Tree
import LineRepl.Settings.Fields
import LineRepl.Text.Utf8
import LineRepl.Toml.Document

/-!
Where settings come from. One settings file is read, the first that there is: the one that was asked
for, the one in the current directory, or the one of the user. Variables of the environment come
before what the file says. Only a file that was asked for must be readable; another one that cannot
be read is passed over.
-/
namespace LineRepl

/-- What a program is given by the one who starts it. -/
structure Environment where
  /-- Variables by name. -/
  vars : List (Text × Text)
  /-- Home directory of the account, for when no variable names one. -/
  accountHome : Path

namespace Environment

def get? (env : Environment) (name : Text) : Option Text := env.vars.lookup name

def home (env : Environment) : Path :=
  match env.get? "HOME" with
  | none | some [] => env.accountHome
  | some h => ⟨h⟩

/-- Where settings files of the user stand. -/
def settingsRoot (env : Environment) : Path :=
  match (env.get? "XDG_CONFIG_HOME").bind Text.nonBlank? with
  | some dir => ⟨dir⟩
  | none => env.home.join ".config"

end Environment

/-- The file that settings were read from. -/
inductive SettingsOrigin
  | explicit (path : Path)
  | here
  | user (path : Path)
  | builtIn
  deriving DecidableEq, Repr

structure LoadedSettings where
  settings : Settings
  origin : SettingsOrigin

namespace FileTree

/-- The text of a file. -/
def textOf (t : FileTree) (p : Path) : Except IoError Text :=
  match t.bytesOf p with
  | .error e => .error e
  | .ok data => match data.text? with
    | some text => .ok text
    | none => .error .notUtf8

end FileTree

/-- What settings are loaded from. -/
structure SettingsSources where
  /-- The text of a file. -/
  textOf : Path → Except IoError Text
  /-- Variables of the environment by name. -/
  get? : Text → Option Text
  /-- Where settings files of the user stand, when that is known. -/
  root : Option Path
  /-- The home directory, when it is known. -/
  home : Option Path
  /-- The entries of the document that a text is, if it is one. -/
  parse : Text → Option Toml.Entries

namespace SettingsSources

/-- A variable that is set to more than blanks, without the blanks around it. -/
def nonBlank? (src : SettingsSources) (name : Text) : Option Text :=
  (src.get? name).bind Text.nonBlank?

end SettingsSources

/-- What settings are loaded from when a program is started. -/
def Environment.sources (env : Environment) (tree : FileTree) : SettingsSources :=
  ⟨tree.textOf, env.get?, some env.settingsRoot, some env.home, Toml.entries?⟩

namespace Settings

def fileName : Path := "creppl.toml"

/-- The settings file of the user. -/
def userFile? (src : SettingsSources) : Option Path :=
  src.root.map fun root => (root.join "creppl").join fileName

/-- The text of the settings file that counts, and which file that is. -/
def findText (src : SettingsSources) :
    Option Path → Except SettingsError (Text × SettingsOrigin)
  | some path =>
    match src.textOf path with
    | .ok text => .ok (text, .explicit path)
    | .error e => .error (.io e)
  | none =>
    match src.textOf fileName, userFile? src with
    | .ok text, _ => .ok (text, .here)
    | .error _, none => .ok ([], .builtIn)
    | .error _, some path => match src.textOf path with
      | .ok text => .ok (text, .user path)
      | .error _ => .ok ([], .builtIn)

/-- Puts what the environment says in place of settings. -/
def override (src : SettingsSources) (s : Settings) : Settings :=
  { s with
    compiler.command := (src.nonBlank? "CREPPL_COMPILER").getD s.compiler.command
    compiler.standard := (src.nonBlank? "CREPPL_STD").getD s.compiler.standard
    session.workdir := ((src.nonBlank? "CREPPL_WORKDIR").map Path.mk).getD s.session.workdir }

/-- Puts the home directory in place of a first name `~`, when it is known. -/
def expandHome (home : Option Path) (p : Path) : Path :=
  match p.after? "~", home with
  | some rest, some home => home.join rest
  | _, _ => p

/-- The settings when nothing is said. The current directory stands for a home that is not known. -/
def builtIn (src : SettingsSources) : Settings := default (src.home.getD ".")

/-- Reads the settings of a text, with what the environment says over them. -/
def ofText (src : SettingsSources) (text : Text) : Except SettingsError Settings :=
  match (src.parse text).bind (ofEntries (builtIn src)) with
  | none => .error .malformed
  | some s =>
    let s := override src s
    .ok { s with session.workdir := expandHome src.home s.session.workdir }

/-- Loads settings that a session can run with. -/
def loadFrom (src : SettingsSources) (explicit : Option Path) :
    Except SettingsError LoadedSettings := do
  let (text, origin) ← findText src explicit
  let settings ← ofText src text
  settings.check
  pure ⟨settings, origin⟩

/-- Loads settings when a program is started. -/
def load (env : Environment) (tree : FileTree) (explicit : Option Path) :
    Except SettingsError LoadedSettings :=
  loadFrom (env.sources tree) explicit

end Settings
end LineRepl
