import LineRepl.Command.Basic
import LineRepl.Release
import LineRepl.Terminal.Escape

/-!
What the program shows: prompt, banner, listing, help and diagnostics. Colour is added around whole
runs of text and never changes the text itself.
-/
namespace LineRepl.Screen

/-! ## Prompt and rows -/

/-- Asks for a line at the cursor line. -/
def prompt (cursor : Nat) : Text :=
  ">>>" ++ Text.centre 5 ('[' :: Text.decimal cursor ++ [']']) ++ ": "

/-- A row number takes at least this many characters. -/
def numberWidth : Nat := 4

/-- One numbered row of a listing. -/
def row (number : Nat) (line : Text) : Text :=
  Text.centre numberWidth (Text.decimal number) ++ "| " ++ line

/-! ## Styles -/

structure Style where
  colour : Escape.Colour
  bold : Bool := false

def titleStyle : Style := ⟨.cyan, true⟩
def metadataStyle : Style := ⟨.grey, false⟩
def numberStyle : Style := ⟨.grey, false⟩
def usageStyle : Style := ⟨.yellow, false⟩
def warningStyle : Style := ⟨.yellow, true⟩
def errorStyle : Style := ⟨.red, true⟩

/-- A run of text in a style, when colour is on. -/
def styled (colour : Bool) (s : Style) (text : Text) : Text :=
  if colour then
    if s.bold then s.colour.start ++ Escape.bold ++ text ++ Escape.plain
    else s.colour.start ++ text ++ Escape.defaultColour
  else text

/-! ## Pages -/

def bannerTitle : Text := "Creppl - C++ REPL (Read, Evaluate, Print, Loop)".toList

def bannerHint : Text := "Type \"$help\" for more information.".toList

def banner (colour : Bool) : Text :=
  styled colour titleStyle bannerTitle ++ ['\n'] ++
    styled colour metadataStyle Release.current.metadata.toList ++ ['\n'] ++ bannerHint ++ ['\n']

/-- Wipes the screen and shows the banner at its top. -/
def cleared (colour : Bool) : Text := Escape.clearScreen ++ Escape.home ++ banner colour

/-- A row of a listing; only its first characters, those of the number, are coloured. -/
def listingRow (colour : Bool) (number : Nat) (line : Text) : Text :=
  let text := row number line
  styled colour numberStyle (text.take numberWidth) ++ text.drop numberWidth ++ ['\n']

/-- Numbered rows from a first number on. -/
def listingFrom (colour : Bool) (number : Nat) : List Text → Text
  | [] => []
  | line :: rest => listingRow colour number line ++ listingFrom colour (number + 1) rest

def listing (colour : Bool) (lines : List Text) : Text := listingFrom colour 1 lines

def indent : Text := List.replicate 4 ' '

/-- Usages take at least this many characters in the help. -/
def usageWidth : Nat := 18

def purpose : Text :=
  ("Every line typed at the prompt is written into the current file at the cursor line, then " ++
    "the file is compiled and the program is run. Lines starting with `$` are commands.").toList

/-- The line of the help for a command. -/
def helpEntry (colour : Bool) (c : Command) : Text :=
  indent ++ styled colour usageStyle (Text.padRight usageWidth c.usage.toList) ++
    c.description.toList ++ ['\n']

def help (colour : Bool) : Text :=
  styled colour titleStyle "DESCRIPTION".toList ++ ['\n'] ++ indent ++ purpose ++ ['\n', '\n'] ++
    styled colour titleStyle "COMMANDS".toList ++ ['\n'] ++
    Command.all.flatMap (helpEntry colour)

/-! ## Messages -/

/-- Text of another program as it is, with a line feed after it when it lacks one. -/
def passage (text : Text) : Text :=
  if text.isEmpty || text.getLast? == some '\n' then text else text ++ ['\n']

def diagnostic (colour : Bool) (s : Style) (label message : Text) : Text :=
  styled colour s label ++ [' '] ++ message ++ ['\n']

def error (colour : Bool) (message : Text) : Text :=
  diagnostic colour errorStyle "error:".toList message

def warning (colour : Bool) (message : Text) : Text :=
  diagnostic colour warningStyle "warning:".toList message

/-! ## All pages -/

/-- All that can be shown. -/
inductive Showing
  | banner | cleared | help
  | listing (lines : List Text)
  | error (message : Text)
  | warning (message : Text)
  | buildErrors (text : Text)
  | programOutput (text : Text)

def Showing.page (colour : Bool) : Showing → Text
  | banner => Screen.banner colour
  | cleared => Screen.cleared colour
  | help => Screen.help colour
  | listing lines => Screen.listing colour lines
  | error message => Screen.error colour message
  | warning message => Screen.warning colour message
  | buildErrors text | programOutput text => passage text

end LineRepl.Screen
