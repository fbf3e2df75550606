import LineRepl.Release
import LineRepl.Settings.Basic

/-!
The command line. Options are taken from left to right; an option that wants a value takes it from
the same argument or from the next one, and no option may be given twice. After `--` nothing is an
option.
-/
namespace LineRepl

structure Options where
  file : Option Text := none
  config : Option Text := none
  compiler : Option Text := none
  standard : Option Text := none
  workdir : Option Text := none
  /-- Overwrites without asking. -/
  assent : Bool := false
  noColour : Bool := false
  deriving DecidableEq, Repr

/-- Options that have a value, and the file name. -/
inductive Slot
  | file | config | compiler | standard | workdir
  deriving DecidableEq, Repr

inductive Switch
  | assent | noColour | help | version
  deriving DecidableEq, Repr

/-- Why a command line does not start a session. -/
inductive UsageError
  | help
  /-- With `long` the version tells more. -/
  | version (long : Bool)
  | unknown (arg : Text)
  | missingValue (slot : Slot)
  | unwantedValue (switch : Switch) (value : Text)
  | repeated (option : String)
  deriving DecidableEq, Repr

namespace Slot

def shown : Slot → String
  | file => "[FILE]"
  | config => "--config <CONFIG>"
  | compiler => "--compiler <COMPILER>"
  | standard => "--std <STD>"
  | workdir => "--workdir <WORKDIR>"

def get? (o : Options) : Slot → Option Text
  | file => o.file
  | config => o.config
  | compiler => o.compiler
  | standard => o.standard
  | workdir => o.workdir

def fill (o : Options) (value : Text) : Slot → Options
  | file => { o with file := some value }
  | config => { o with config := some value }
  | compiler => { o with compiler := some value }
  | standard => { o with standard := some value }
  | workdir => { o with workdir := some value }

end Slot

namespace Switch

def shown : Switch → String
  | assent => "--yes"
  | noColour => "--no-color"
  | help => "--help"
  | version => "--version"

end Switch

/-- What the name of an option stands for. -/
inductive Named
  | slot (s : Slot)
  | switch (s : Switch)
  deriving DecidableEq, Repr

namespace Named

def ofLong? (name : Text) : Option Named :=
  match String.ofList name with
  | "config" => some (slot .config)
  | "compiler" => some (slot .compiler)
  | "std" => some (slot .standard)
  | "workdir" => some (slot .workdir)
  | "yes" => some (switch .assent)
  | "no-color" => some (switch .noColour)
  | "help" => some (switch .help)
  | "version" => some (switch .version)
  | _ => none

def ofShort? : Char → Option Named
  | 'c' => some (slot .config)
  | 'y' => some (switch .assent)
  | 'h' => some (switch .help)
  | 'V' => some (switch .version)
  | _ => none

end Named

namespace Options

/-- Options read so far, and one whose value is not yet filed: it may still be missing. -/
structure Draft where
  options : Options := {}
  pending : Option (Slot × Option Text) := none

namespace Draft

def settle (d : Draft) : Except UsageError Options :=
  match d.pending with
  | none => .ok d.options
  | some (slot, none) => .error (.missingValue slot)
  | some (slot, some value) =>
    if (slot.get? d.options).isSome then .error (.repeated slot.shown)
    else .ok (slot.fill d.options value)

/-- Takes a switch. What came before it is filed first. -/
def flip (long : Bool) (s : Switch) (d : Draft) : Except UsageError Draft := do
  let o ← d.settle
  match s with
  | .help => throw .help
  | .version => throw (.version long)
  | .assent =>
    if o.assent then throw (.repeated s.shown) else pure ⟨{ o with assent := true }, none⟩
  | .noColour =>
    if o.noColour then throw (.repeated s.shown) else pure ⟨{ o with noColour := true }, none⟩

/-- Takes an option that has a value, and its value if that is attached. -/
def begin (slot : Slot) (attached : Option Text) (d : Draft) : Except UsageError Draft := do
  let o ← d.settle
  let d : Draft := ⟨o, some (slot, attached)⟩
  if attached.isSome then pure ⟨← d.settle, none⟩ else pure d

/-- Takes an argument that is no option. There is room for one file name. -/
def place (arg : Text) (d : Draft) : Except UsageError Draft := do
  let placed := d.options.file.isSome || d.pending.any fun p => p.1 == .file
  if placed then throw (.unknown arg)
  let o ← d.settle
  pure ⟨o, some (.file, some arg)⟩

/-- Takes an option by its long name. -/
def long (name : Text) (attached : Option Text) (d : Draft) : Except UsageError Draft :=
  match Named.ofLong? name with
  | none => .error (.unknown ("--" ++ name))
  | some (.slot slot) => d.begin slot attached
  | some (.switch s) => match attached with
    | some value => .error (.unwantedValue s value)
    | none => d.flip true s

/-- Takes options by their letters. All that follows the letter of an option with a value is its
value, without an equals sign in front. -/
def short : Text → Draft → Except UsageError Draft
  | [], d => .ok d
  | c :: r, d =>
    match Named.ofShort? c with
    | none => .error (.unknown ['-', c])
    | some (.switch s) => d.flip false s >>= short r
    | some (.slot slot) => d.begin slot <| match r with
      | [] => none
      | '=' :: value => some value
      | value => some value

/-- Takes an argument before any `--`. -/
def take (arg : Text) (d : Draft) : Except UsageError Draft :=
  match arg with
  | '-' :: '-' :: r => match Text.splitFirst '=' r with
    | some (name, value) => d.long name (some value)
    | none => d.long r none
  | '-' :: c :: r => d.short (c :: r)
  | arg => match d.pending with
    | some (slot, none) => .ok { d with pending := some (slot, some arg) }
    | _ => d.place arg

def takeAll : List Text → Draft → Except UsageError Draft
  | [], d => .ok d
  | arg :: args, d =>
    if arg = "--".toList then args.foldlM (fun d arg => d.place arg) d
    else d.take arg >>= takeAll args

end Draft

def parse (args : List Text) : Except UsageError Options := do
  (← Draft.takeAll args {}).settle

/-- Puts what the command line says in place of settings. -/
def override (o : Options) (s : Settings) : Settings :=
  { s with
    compiler.command := o.compiler.getD s.compiler.command
    compiler.standard := o.standard.getD s.compiler.standard
    session.workdir := (o.workdir.map Path.mk).getD s.session.workdir
    colour := s.colour && !o.noColour }

end Options

namespace UsageError

def usage : String := "Usage: creppl [OPTIONS] [FILE]\n"

def helpText : String :=
  "A line-by-line C++ REPL. Every accepted line is compiled and run\n\n" ++ usage ++
  "\nArguments:\n" ++
  "  [FILE]  Source file name under <workdir>/src. `.cpp` is appended when missing\n" ++
  "\nOptions:\n" ++
  "  -c, --config <CONFIG>      Path to config file (default: ./creppl.toml or " ++
  "~/.config/creppl/creppl.toml)\n" ++
  "      --compiler <COMPILER>  Override the compiler command\n" ++
  "      --std <STD>            Override the language standard passed as `-std=`\n" ++
  "      --workdir <WORKDIR>    Override the working directory\n" ++
  "  -y, --yes                  Overwrite an existing source file without asking\n" ++
  "      --no-color             Disable color output\n" ++
  "  -h, --help                 Print help\n" ++
  "  -V, --version              Print version\n\n" ++
  Release.current.helpTrailer ++ "\n"

def versionText (long : Bool) : String :=
  "creppl " ++ (if long then Release.current.longVersion else Release.current.version) ++ "\n"

def hint : String := "\nFor more information, try '--help'.\n"

def message : UsageError → String
  | help => helpText
  | version long => versionText long
  | unknown arg => s!"error: unexpected argument '{String.ofList arg}' found\n\n{usage}{hint}"
  | missingValue slot =>
    s!"error: a value is required for '{slot.shown}' but none was supplied\n{hint}"
  | unwantedValue switch value =>
    s!"error: unexpected value '{String.ofList value}' for '{switch.shown}' found; no more were " ++
      s!"expected\n\n{usage}{hint}"
  | repeated option =>
    s!"error: the argument '{option}' cannot be used multiple times\n\n{usage}{hint}"

def asked : UsageError → Bool
  | help | version _ => true
  | _ => false

end UsageError
end LineRepl
