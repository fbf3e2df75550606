import LineRepl.Text.Basic

/-!
Scripts of the command shell, as they are read. Compilers and the programs they build may be
scripts, so the shell language is understood as far as such scripts need it. Text in a shell stands
for bytes: it holds one character below 256 for each byte.
-/
namespace LineRepl.Shell

/-- What a redirection does with its stream. -/
inductive RedirectKind
  | read | write | append
  /-- Makes the stream the same as another one. -/
  | duplicate
  | hereText
  deriving DecidableEq, Repr

/-- How a value is changed on its way into a word. -/
inductive Rule
  | length
  /-- Another text stands for a value that is missing, or also for an empty one. -/
  | default (orEmpty : Bool)
  /-- The same, and the text becomes the value. -/
  | assign (orEmpty : Bool)
  /-- Another text stands for a value that is there. -/
  | alternative (orEmpty : Bool)
  /-- A missing value ends the script with a message. -/
  | require (orEmpty : Bool)
  | dropFront (longest : Bool)
  | dropBack (longest : Bool)
  deriving DecidableEq, Repr

mutual

inductive Part
  /-- A character outside quotes. -/
  | plain (c : Char)
  /-- A character that is protected from any further meaning. -/
  | fixed (c : Char)
  | quoted (parts : List Part)
  | parameter (name : Text) (rule : Option (Rule × List Part))
  | output (script : Script)
  | arithmetic (parts : List Part)

inductive Redirect
  | mk (stream : Nat) (kind : RedirectKind) (target : List Part)

inductive Script
  | nothing
  /-- Assignments, or a command with its arguments, that begin on a line. -/
  | simple (line : Nat) (assignments : List (Text × List Part)) (words : List (List Part))
      (redirects : List Redirect)
  | followed (first second : Script)
  /-- The second only if the first succeeds. -/
  | both (first second : Script)
  /-- The second only if the first fails. -/
  | either (first second : Script)
  | negated (script : Script)
  | piped (source sink : Script)
  | choice (condition yes no : Script)
  /-- The body as long as the condition succeeds, or as long as it fails. -/
  | repeated (whileFails : Bool) (condition body : Script)
  /-- The body for each item; without items, for each argument. -/
  | forEach (name : Text) (items : Option (List (List Part))) (body : Script)
  | matching (subject : List Part) (cases : List (List (List Part) × Script))
  /-- With `apart` the body cannot change variables outside it. -/
  | grouped (apart : Bool) (body : Script) (redirects : List Redirect)
  | function (name : Text) (body : Script)

end

instance : Inhabited Script := ⟨.nothing⟩

abbrev Word := List Part

end LineRepl.Shell
