import LineRepl.Attempt
import LineRepl.Terminal.EditLine
import LineRepl.Terminal.Escape
import LineRepl.Terminal.History
import LineRepl.Terminal.Key
import LineRepl.Terminal.Mode
import LineRepl.Terminal.Sink

/-!
Reads one line from a terminal with editing and recall. Raw mode is held only while the line is
read: it is left before the final frame is shown, and on every other way out. After each key that
changed the line or moved its cursor, the row is painted again after the prompt.
-/
namespace LineRepl

inductive ReadOutcome
  | line (text : Text)
  /-- The interrupt key, or the end of the input. -/
  | interrupted
  deriving DecidableEq, Repr

inductive InputError
  /-- Raw mode could not be entered or left. -/
  | rawMode (e : IoError)
  /-- Reading failed, or showing what was read. -/
  | io (e : IoError)
  deriving DecidableEq, Repr

def InputError.message : InputError → String
  | rawMode e => s!"raw mode: {e.message}"
  | io e => s!"input: {e.message}"

/-- What lines are read from, and what is kept from one line to the next. -/
structure Keyboard where
  input : InputStream
  mode : ModeSwitch := {}
  history : HistoryRing := HistoryRing.ofCapacity HistoryRing.defaultCapacity

structure Terminal where
  keyboard : Keyboard
  screen : Sink := {}

namespace Terminal

/-- An action on a terminal. -/
abbrev Action := EStateM InputError Terminal

def display (text : Text) : EStateM IoError Terminal Unit :=
  Attempt.within screen (fun screen t => { t with screen }) (Sink.print text)

/-- Switches the mode of the terminal. -/
def switch (act : EStateM IoError ModeSwitch Unit) : Action Unit :=
  (Attempt.within (·.keyboard.mode)
    (fun mode t => { t with keyboard := { t.keyboard with mode } }) act).adaptExcept .rawMode

def enterRaw : Action Unit := switch ModeSwitch.enterRaw

def leaveRaw : Action Unit := switch ModeSwitch.leaveRaw

/-- Gives up after an error in raw mode. The mode is left, and the first error is reported. -/
def abandon {α : Type} (e : IoError) : Action α := fun t =>
  match leaveRaw t with
  | .ok _ t => .error (.io e) t
  | .error _ t => .error (.io e) t

/-- Leaves raw mode, then shows the last frame. -/
def finish (frame : Text) : Action Unit := do
  leaveRaw
  (display frame).adaptExcept .io

/-- Paints the line after the prompt and puts the cursor of the terminal on the editing cursor. -/
def lineFrame (promptWidth : Nat) (l : EditLine) : Text :=
  Escape.firstColumn ++ Escape.forward promptWidth ++ Escape.clearRest ++ l.text ++
    Escape.firstColumn ++ Escape.forward promptWidth ++ Escape.forward l.cursor

/-- Paints the finished row and leaves it. -/
def finalFrame (prompt text : Text) : Text :=
  Escape.firstColumn ++ prompt ++ text ++ Escape.clearRest ++ Escape.newRow

/-- What an editing key does to the line and to the recall cursor. -/
def edit (key : Key) (l : EditLine) (h : HistoryRing) : EditLine × HistoryRing :=
  match key with
  | .char c => (l.insert c, h)
  | .backspace => (l.backspace, h)
  | .deleteForward => (l.deleteForward, h)
  | .left => (l.moveLeft, h)
  | .right => (l.moveRight, h)
  | .up => (EditLine.ofText h.recallPrevious.1, h.recallPrevious.2)
  | .down => (EditLine.ofText h.recallNext.1, h.recallNext.2)
  | .enter | .interrupt | .other => (l, h)

/-- Whether the row is painted after a key. Moves and recalls always are, deletions only when there
is something to delete. -/
def repaints (key : Key) (l : EditLine) : Bool :=
  match key with
  | .backspace => l.canBackspace
  | .deleteForward => l.canDeleteForward
  | .other => false
  | _ => true

/-- Reads keys until the line is submitted or interrupted. -/
def readKeys (prompt : Text) (l : EditLine) : Action ReadOutcome := fun t =>
  match _h : Key.read t.keyboard.input with
  | .error e input => abandon e { t with keyboard := { t.keyboard with input } }
  | .ok none input =>
    ((fun _ => .interrupted) <$> finish Escape.newRow)
      { t with keyboard := { t.keyboard with input } }
  | .ok (some .interrupt) input =>
    ((fun _ => .interrupted) <$> finish Escape.newRow)
      { t with keyboard := { t.keyboard with input } }
  | .ok (some .enter) input =>
    match finish (finalFrame prompt l.text) { t with keyboard := { t.keyboard with input } } with
    | .error e t => .error e t
    | .ok _ t =>
      let history := t.keyboard.history.submit l.text
      .ok (.line l.text) { t with keyboard := { t.keyboard with history } }
  | .ok (some key) input =>
    let (l', history) := edit key l t.keyboard.history
    let keyboard := { t.keyboard with input, history }
    if repaints key l then
      match Sink.print (lineFrame prompt.length l') t.screen with
      | .error e screen => abandon e ⟨keyboard, screen⟩
      | .ok _ screen => readKeys prompt l' ⟨keyboard, screen⟩
    else readKeys prompt l' ⟨keyboard, t.screen⟩
termination_by t => t.keyboard.input.remaining
decreasing_by all_goals exact Key.remaining_of_read (by assumption)

def readLine (prompt : Text) : Action ReadOutcome := fun t =>
  match enterRaw t with
  | .error e t => .error e t
  | .ok _ t => match display prompt t with
    | .error e t => abandon e t
    | .ok _ t => readKeys prompt {} t

end Terminal
end LineRepl
