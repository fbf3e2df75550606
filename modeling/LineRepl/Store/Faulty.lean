import LineRepl.Store.Basic

/-!
A store whose calls fail by a schedule. A call that the schedule refuses does not reach the store
behind it, so its text stays as it is.
-/
namespace LineRepl

/-- The kinds of call, counted apart. -/
inductive StoreCall
  | load | replace | append | truncate | readLineAt
  deriving DecidableEq, Repr

/-- Which calls fail, by kind and number counted from 0, and with what error. -/
abbrev StoreSchedule := StoreCall → Nat → Option IoError

structure FaultyStore (σ : Type) where
  inner : σ
  schedule : StoreSchedule
  /-- How many calls of each kind were made. -/
  made : StoreCall → Nat := fun _ => 0

namespace FaultyStore

variable {σ : Type}

/-- Makes a call unless the schedule refuses it. -/
def attempt {α : Type} (call : StoreCall) (act : EStateM IoError σ α) :
    EStateM IoError (FaultyStore σ) α := fun s =>
  let made := fun k => if k = call then s.made k + 1 else s.made k
  match s.schedule call (s.made call) with
  | some e => .error e { s with made }
  | none => match act s.inner with
    | .ok a inner => .ok a { s with inner, made }
    | .error e inner => .error e { s with inner, made }

/-- The schedule that refuses nothing. -/
def never : StoreSchedule := fun _ _ => none

instance [TextStore σ] : TextStore (FaultyStore σ) where
  load := attempt .load TextStore.load
  replace t := attempt .replace (TextStore.replace t)
  append t := attempt .append (TextStore.append t)
  truncate size := attempt .truncate (TextStore.truncate size)
  readLineAt offset := attempt .readLineAt (TextStore.readLineAt offset)

end FaultyStore
end LineRepl
