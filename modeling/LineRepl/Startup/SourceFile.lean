import LineRepl.Files.Tree
import LineRepl.Settings.Basic
import LineRepl.Text.Lower

/-!
Choosing the source file. A file that exists is used only with consent; without it, another name is
asked for. Every answer is used once, and nothing is asked when there is nothing to decide.
-/
namespace LineRepl

/-- Ending of source file names. -/
def sourceSuffix : Text := ".cpp".toList

/-- A name with the ending of source files. -/
def withSourceSuffix (name : Text) : Text :=
  if sourceSuffix.isSuffixOf name then name else name ++ sourceSuffix

/-- The file name that an answer gives, in lower case, unless the answer is blank. -/
def answeredName? (answer : Text) : Option Text :=
  match Text.toLower (Text.trim answer) with
  | [] => none
  | name => some (withSourceSuffix name)

/-- Whether an answer agrees to overwrite. -/
def agrees (answer : Text) : Bool := (Text.toLower (Text.trim answer)).head? == some 'y'

/-- What comes back for a question. -/
inductive Answer
  | line (t : Text)
  | endOfInput
  | failure (e : IoError)

/-- One side of a talk with the user. -/
inductive Saying
  | ask (question : Text)
  | notify (message : Text)
  deriving DecidableEq, Repr

/-- How a choice came out, what was said on the way, and the answers that are left. -/
structure Choice where
  result : Except IoError Path
  talk : List Saying := []
  rest : List Answer := []

namespace Choice

/-- A choice after one more saying. -/
def after (s : Saying) (c : Choice) : Choice := { c with talk := s :: c.talk }

def noName : IoError := ⟨.unexpectedEof, "no file name given"⟩

def overwriteQuestion (name : Text) : Saying :=
  .ask ("File '" ++ name ++ "' already exists, overwrite? (Y/n): ")

def nameQuestion : Saying := .ask "Enter filename: "

def emptyNotice : Saying := .notify "Filename cannot be empty. "

/-- Chooses a file in a directory: the one named, if there is a name and it is free or may be
overwritten, else one that the answers name. `notices` tells which notices fail, counted from 0. -/
def fromAnswers (tree : FileTree) (dir : Path) (assent : Bool) :
    (notices : Nat → Option IoError) → Option Text → List Answer → Choice
  | notices, some name, answers =>
    let path := dir.join ⟨name⟩
    if assent || !tree.pathExists path then ⟨.ok path, [], answers⟩
    else after (overwriteQuestion name) <| match answers with
      | [] => ⟨.error noName, [], []⟩
      | .endOfInput :: rest => ⟨.error noName, [], rest⟩
      | .failure e :: rest => ⟨.error e, [], rest⟩
      | .line answer :: rest =>
        if agrees answer then ⟨.ok path, [], rest⟩
        else fromAnswers tree dir assent notices none rest
  | notices, none, answers =>
    after nameQuestion <| match answers with
      | [] => ⟨.error noName, [], []⟩
      | .endOfInput :: rest => ⟨.error noName, [], rest⟩
      | .failure e :: rest => ⟨.error e, [], rest⟩
      | .line answer :: rest =>
        match answeredName? answer with
        | some name => fromAnswers tree dir assent notices (some name) rest
        | none =>
          after emptyNotice <| match notices 0 with
            | some e => ⟨.error e, [], rest⟩
            | none => fromAnswers tree dir assent (notices ∘ Nat.succ) none rest

end Choice

/-- Chooses the source file that a name stands for. With `assent` nothing is asked. -/
def chooseSource (tree : FileTree) (dir : Path) (name : Text) (assent : Bool)
    (answers : List Answer) (notices : Nat → Option IoError := fun _ => none) : Choice :=
  Choice.fromAnswers tree dir assent notices (some (withSourceSuffix name)) answers

/-- Where the program of a source file is put. -/
def programPath (dir source : Path) : Path := dir.join ⟨source.fileStem?.getD "a.out"⟩

/-- Makes the directories of a session. An error says which one could not be made. -/
def SessionSettings.makeDirectories (s : SessionSettings) : FileTree.Action Unit :=
  [s.workdir, s.sourceDir, s.programDir].forM fun dir =>
    (FileTree.makeDirectories dir).adaptExcept fun e =>
      { e with message := String.ofList dir.text ++ ": " ++ e.message }

end LineRepl
