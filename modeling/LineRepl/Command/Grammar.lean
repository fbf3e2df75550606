import LineRepl.Command.Basic
import LineRepl.Text.Blank
import LineRepl.Text.Number

/-!
The grammar of a statement: the sigil, a command word in any ASCII case, and arguments. `goto`
takes a line, `del` at most a line or a range, `ins` and `rep` at most a line and then program text
that is kept as it is. Line numbers are below the word limit.
-/
namespace LineRepl

/-- The lines that a statement names. -/
inductive LineArg
  | line (n : Nat)
  /-- Both ends as they were typed, in either order. -/
  | range (first last : Nat)
  deriving DecidableEq, Repr

structure Statement where
  command : Command
  arg : Option LineArg := none
  /-- Program text after `ins` or `rep`. -/
  body : Option Text := none
  deriving DecidableEq, Repr

/-- Why a statement was refused. `statement` is the whole of it, trimmed. -/
inductive CommandError
  | missingCommand
  | unknownCommand (token : Text)
  | unexpectedArguments (command : Command) (count : Nat) (statement : Text)
  | missingArgument (command : Command)
  | tooManyArguments (command : Command) (statement : Text)
  | invalidArgument (command : Command) (argument statement : Text)
  | malformedRange (command : Command) (argument : Text)
  deriving DecidableEq, Repr

def CommandError.message : CommandError → String
  | missingCommand => "missing command after `$`"
  | unknownCommand token => "unknown command `$" ++ String.ofList token ++ "`"
  | unexpectedArguments command count statement =>
    let verb := if count = 1 then "was" else "were"
    s!"command `${command.name}` takes no arguments, but {count} {verb} provided: `" ++
      String.ofList statement ++ "`"
  | missingArgument command => s!"missing argument for command `${command.name}`"
  | tooManyArguments command statement =>
    "invalid number of arguments in `" ++ String.ofList statement ++
      s!"`; `${command.name}` takes a single argument"
  | invalidArgument command argument statement =>
    "unrecognized argument `" ++ String.ofList argument ++ "` in `" ++ String.ofList statement ++
      s!"`; `${command.name}` expects a line number"
  | malformedRange command argument =>
    "range `" ++ String.ofList argument ++
      s!"` for `${command.name}` cannot contain more than 2 parts"

namespace Statement

/-- Marks a line as a statement. -/
def sigil : Char := '$'

/-- Whether a line is a statement rather than program text. -/
def isStatement (input : Text) : Bool := input.head? == some sigil

/-- The statement of a command that takes no arguments. -/
def parseBare (command : Command) (tail statement : Text) : Except CommandError Statement :=
  match tail.words.length with
  | 0 => .ok { command }
  | n + 1 => .error (.unexpectedArguments command (n + 1) statement)

/-- A number that is part of an argument. -/
def parseNumber (command : Command) (part argument statement : Text) : Except CommandError Nat :=
  match part.number? with
  | some n => .ok n
  | none => .error (.invalidArgument command argument statement)

def parseGoto (command : Command) (tail statement : Text) : Except CommandError Statement :=
  match tail.words with
  | [] => .error (.missingArgument command)
  | [arg] => do
    let n ← parseNumber command arg arg statement
    pure { command, arg := some (.line n) }
  | _ => .error (.tooManyArguments command statement)

def parseDelete (command : Command) (tail statement : Text) : Except CommandError Statement :=
  match tail.words with
  | [] => .ok { command }
  | [arg] => match Text.fields '-' arg with
    | [n] => do
      let n ← parseNumber command n arg statement
      pure { command, arg := some (.line n) }
    | [first, last] => do
      let first ← parseNumber command first arg statement
      let last ← parseNumber command last arg statement
      pure { command, arg := some (.range first last) }
    | _ => .error (.malformedRange command arg)
  | _ => .error (.tooManyArguments command statement)

/-- Program text, unless there is none. -/
def bodyOf (text : Text) : Option Text := if text.isEmpty then none else some text

/-- `ins` and `rep`: a first token that is a number is the line. One that is a range is refused,
and any other begins the program text. -/
def parseWrite (command : Command) (tail statement : Text) : Except CommandError Statement :=
  match tail.splitToken with
  | none => .ok { command, body := bodyOf tail }
  | some (first, rest) =>
    if first.isNumber then do
      let n ← parseNumber command first first statement
      pure { command, arg := some (.line n), body := bodyOf rest }
    else if first.isRange then .error (.invalidArgument command first statement)
    else .ok { command, body := bodyOf tail }

/-- Reads a statement. The sigil may be absent. -/
def parse (input : Text) : Except CommandError Statement :=
  let statement := input.trim
  let rest := if isStatement statement then statement.drop 1 else statement
  match Text.splitToken rest with
  | none => .error .missingCommand
  | some (token, tail) =>
    match Command.ofToken? token with
    | none => .error (.unknownCommand token)
    | some .goto => parseGoto .goto tail statement
    | some .delete => parseDelete .delete tail statement
    | some .insert => parseWrite .insert tail statement
    | some .replace => parseWrite .replace tail statement
    | some command => parseBare command tail statement

end Statement
end LineRepl
