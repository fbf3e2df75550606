import LineRepl.Build.Toolchain
import LineRepl.Session.Run
import LineRepl.Startup.Options
import LineRepl.Startup.Preflight
import LineRepl.Startup.SourceFile

/-!
The whole program: from the command line, the environment, the files and the input to the output,
the exit code and the files that are left. The answers about the source file are the first lines of
the input; the session reads what follows them.
-/
namespace LineRepl

/-- The settings that a start comes to: those that are loaded, with what the command line says over
them, if a session can run with them. -/
def Options.settle (o : Options) (src : SettingsSources) : Except SettingsError Settings := do
  let loaded ← Settings.loadFrom src (o.config.map Path.mk)
  let s := o.override loaded.settings
  s.check
  pure s

/-- What the program is started with. -/
structure Invocation where
  args : List Text
  env : Environment
  tree : FileTree
  input : Bytes
  /-- Whether the output can show colours. -/
  colour : Bool := false
  /-- Seconds since 1970. -/
  secs : Nat := 0

/-- What the program leaves behind. -/
structure Departure where
  exitCode : Nat
  stdout : Bytes := []
  stderr : Text := []
  tree : FileTree

namespace Invocation

/-- The lines of an input, each with its terminator. -/
def inputLines : Bytes → List Bytes
  | [] => []
  | b :: r =>
    if b = 10 then [b] :: inputLines r
    else match inputLines r with
      | [] => [[b]]
      | l :: ls => (b :: l) :: ls

/-- A line of the input as an answer, without the line end. -/
def answerOf (line : Bytes) : Answer :=
  match line.text? with
  | some t => .line (t.reverse.dropWhile fun c => c = '\r' || c = '\n').reverse
  | none => .failure .notUtf8

/-- What is shown while the source file is chosen. -/
def shownTalk (talk : List Saying) : Text :=
  talk.flatMap fun s => match s with
    | .ask t | .notify t => t

/-- The end after an error. -/
def failed (tree : FileTree) (message : Text) (stdout : Bytes := []) : Departure :=
  { exitCode := 1, stdout, stderr := "error: " ++ message ++ "\n", tree }

/-- The surroundings of the session on a source file. -/
def workplace (i : Invocation) (s : Settings) (tree : FileTree) (source : Path) : Workplace where
  store := ⟨tree, source⟩
  env := i.env
  compiler := s.compiler
  program := programPath s.session.programDir source
  secs := i.secs

/-- Runs a session on a source file. `shown` was shown before, and `input` is left to read. -/
def runSession (i : Invocation) (s : Settings) (tree : FileTree) (source : Path) (shown : Text)
    (input : Bytes) : Departure :=
  match Buffer.withSkeleton (i.workplace s tree source) s.session.skeleton with
  | .error e => failed tree e.message.toList shown.utf8
  | .ok buffer =>
    let options : SessionOptions :=
      { source
        skeleton := s.session.skeleton
        log := if s.session.logOutput then some s.session.logPath else none
        colour := s.colour && i.colour }
    let keyboard : Keyboard :=
      { input := InputStream.ofBytes input
        history := HistoryRing.ofCapacity s.session.historySize }
    let start : Session Workplace :=
      { buffer, options, output := { written := shown.utf8.toArray } }
    let depart : Nat → Text → Session Workplace → Departure := fun exitCode stderr s =>
      { exitCode, stdout := s.output.written.toList, stderr, tree := s.buffer.store.store.tree }
    let complaint := fun (e : SessionError) => "error: ".toList ++ e.message ++ "\n"
    match Session.showBanner start with
    | .error e s => depart 1 (complaint e) s
    | .ok _ s => match Session.run keyboard s with
      | .error e (_, s) => depart 1 (complaint e) s
      | .ok _ (_, s) => depart 0 [] s

/-- Runs the program with its options. -/
def runWith (i : Invocation) (o : Options) : Departure :=
  match o.settle (i.env.sources i.tree) with
  | .error e => failed i.tree e.message.toList
  | .ok s => match s.compiler.preflight? i.tree (i.env.get? "PATH") with
    | some fault => failed i.tree fault.message
    | none => match s.session.makeDirectories i.tree with
      | .error e tree => failed tree ("failed to prepare working directory: ".toList ++ e.message)
      | .ok _ tree =>
        let lines := inputLines i.input
        let name := o.file.getD s.session.defaultFile
        let choice := chooseSource tree s.session.sourceDir name o.assent (lines.map answerOf)
        let shown := shownTalk choice.talk
        match choice.result with
        | .error e =>
          failed tree ("failed to choose a source file: ".toList ++ e.message) shown.utf8
        | .ok source =>
          let input := (lines.drop (lines.length - choice.rest.length)).flatten
          runSession i s tree source shown input

/-- Runs the program. -/
def run (i : Invocation) : Departure :=
  match Options.parse i.args with
  | .ok o => runWith i o
  | .error e =>
    if e.asked then { exitCode := 0, stdout := Text.utf8 e.message, tree := i.tree }
    else { exitCode := 2, stderr := e.message, tree := i.tree }

end Invocation
end LineRepl
