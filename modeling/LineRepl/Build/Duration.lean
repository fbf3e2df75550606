import LineRepl.Build.Report

/-!
Time limits in words. Whole hours and whole minutes are named as such, any other whole number of
seconds in seconds, and the rest with three digits for the milliseconds.
-/
namespace LineRepl.Duration

/-- Digits of a number below 1000, three of them. -/
def threeDigits (n : Nat) : Text :=
  List.replicate (3 - (Text.decimal n).length) '0' ++ Text.decimal n

/-- A number of milliseconds in words. -/
def format (millis : Nat) : Text :=
  let secs := millis / 1000
  let rest := millis % 1000
  if secs = 0 then Text.decimal rest ++ "ms"
  else if rest = 0 then
    if secs % 3600 = 0 then Text.decimal (secs / 3600) ++ "h"
    else if secs % 60 = 0 then Text.decimal (secs / 60) ++ "m"
    else Text.decimal secs ++ "s"
  else Text.decimal secs ++ "." ++ threeDigits rest ++ "s"

/-- What becomes of work under a limit: its outcome, or a time-out that names the work. Work that
never ends has no outcome. -/
def within (limitMillis : Nat) (context : Text) :
    Option (Except ToolchainError ExecOutput) → Except ToolchainError ExecOutput
  | some outcome => outcome
  | none => .error (.timedOut (context ++ " after " ++ format limitMillis))

end LineRepl.Duration
