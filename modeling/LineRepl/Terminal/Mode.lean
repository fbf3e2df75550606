import LineRepl.Failure

/-!
The switch between the two modes of a terminal. In raw mode keys arrive one by one; in cooked mode
the terminal edits lines itself. Each switch may fail, and every call is recorded.
-/
namespace LineRepl

inductive ModeEvent
  | raw | cooked | enterFailed | leaveFailed
  deriving DecidableEq, Repr

def ModeEvent.isEnter : ModeEvent → Bool
  | raw | enterFailed => true
  | cooked | leaveFailed => false

structure ModeSwitch where
  /-- The error of the n-th call to enter raw mode, counted from 0. -/
  enterFaults : Nat → Option IoError := fun _ => none
  leaveFaults : Nat → Option IoError := fun _ => none
  /-- What the calls did, oldest first. -/
  events : List ModeEvent := []

namespace ModeSwitch

def enterRaw : EStateM IoError ModeSwitch Unit := fun m =>
  match m.enterFaults (m.events.countP ModeEvent.isEnter) with
  | none => .ok () { m with events := m.events ++ [.raw] }
  | some e => .error e { m with events := m.events ++ [.enterFailed] }

def leaveRaw : EStateM IoError ModeSwitch Unit := fun m =>
  match m.leaveFaults (m.events.countP (!·.isEnter)) with
  | none => .ok () { m with events := m.events ++ [.cooked] }
  | some e => .error e { m with events := m.events ++ [.leaveFailed] }

end ModeSwitch
end LineRepl
