import LineRepl.Session.Workshop
import LineRepl.Store.Faulty
import LineRepl.Store.Place

/-!
Surroundings in which everything that a session depends on is laid down beforehand: which store
calls fail, what the tools answer to each call, and what time it is.
-/
namespace LineRepl

structure Rehearsal where
  place : FaultyStore Place
  /-- What the tools answer to their n-th call, counted from 0. -/
  answers : Nat → Except ToolchainError RunReport
  /-- The source files the tools were called with, oldest first. -/
  calls : List Path := []
  /-- Seconds since 1970, at all times. -/
  secs : Nat := 0

namespace Rehearsal

def onStore {α : Type} (act : EStateM IoError (FaultyStore Place) α) :
    EStateM IoError Rehearsal α :=
  Attempt.within place (fun place r => { r with place }) act

/-- The tools have their answer laid down and touch nothing. -/
def buildAndRun (source : Path) : EStateM ToolchainError Rehearsal RunReport := fun r =>
  let next := { r with calls := r.calls ++ [source] }
  match r.answers r.calls.length with
  | .ok report => .ok report next
  | .error e => .error e next

/-- Runs an action on the files beside the text. -/
def onTree {α : Type} (act : FileTree.Action α) : EStateM IoError Rehearsal α :=
  Attempt.within (·.place.inner.tree)
    (fun tree r => { r with place := { r.place with inner := { r.place.inner with tree } } }) act

def appendLog (path : Path) (tag : LogTag) (text : Text) : EStateM IoError Rehearsal Unit :=
  fun r => onTree (Journal.append path r.secs tag text) r

instance : Workshop Rehearsal where
  load := onStore TextStore.load
  replace t := onStore (TextStore.replace t)
  append t := onStore (TextStore.append t)
  truncate size := onStore (TextStore.truncate size)
  readLineAt offset := onStore (TextStore.readLineAt offset)
  buildAndRun := buildAndRun
  appendLog := appendLog

end Rehearsal
end LineRepl
