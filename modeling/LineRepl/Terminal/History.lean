import LineRepl.Text.Basic

/-!
The last submitted lines in a ring of fixed size. One cursor names the slot to fill next, another
walks over the filled ones when lines are recalled. An empty line in a slot counts as no line.
-/
namespace LineRepl

structure HistoryRing where
  slots : Array Text
  /-- The slot that the next line fills. -/
  put : Nat
  /-- The slot that is recalled next. -/
  get : Nat
  put_lt : put < slots.size
  get_lt : get < slots.size

namespace HistoryRing

/-- An empty ring. There is at least one slot, and the first line is recalled from slot 0. -/
def ofCapacity (capacity : Nat) : HistoryRing where
  slots := Array.replicate (max capacity 1) []
  put := 0
  get := max capacity 1 - 1
  put_lt := by rw [Array.size_replicate]; omega
  get_lt := by rw [Array.size_replicate]; omega

/-- How many lines are remembered unless the settings say otherwise. -/
def defaultCapacity : Nat := 100

def capacity (r : HistoryRing) : Nat := r.slots.size

theorem size_pos (r : HistoryRing) : 0 < r.slots.size := Nat.zero_lt_of_lt r.put_lt

def stepForward (r : HistoryRing) (i : Nat) : Nat := (i + 1) % r.slots.size

def stepBack (r : HistoryRing) (i : Nat) : Nat := (i + r.slots.size - 1) % r.slots.size

/-- Records a line. Recall starts from it. -/
def submit (line : Text) (r : HistoryRing) : HistoryRing where
  slots := r.slots.set r.put line r.put_lt
  put := r.stepForward r.put
  get := r.put
  put_lt := by rw [Array.size_set]; exact Nat.mod_lt _ r.size_pos
  get_lt := by rw [Array.size_set]; exact r.put_lt

/-- The slot under the recall cursor. -/
def recalled (r : HistoryRing) : Text :=
  have := r.get_lt
  r.slots[r.get]

def moveForward (r : HistoryRing) : HistoryRing :=
  { r with get := r.stepForward r.get, get_lt := Nat.mod_lt _ r.size_pos }

def moveBack (r : HistoryRing) : HistoryRing :=
  { r with get := r.stepBack r.get, get_lt := Nat.mod_lt _ r.size_pos }

/-- Steps to the next newer line, or stays and gives an empty one when there is none. -/
def recallNext (r : HistoryRing) : Text × HistoryRing :=
  if r.moveForward.recalled.isEmpty then ([], r.moveForward.moveBack)
  else (r.moveForward.recalled, r.moveForward)

/-- Gives the line under the cursor and steps back. Past the oldest line it turns round, so that
going on gives the oldest line again. -/
def recallPrevious (r : HistoryRing) : Text × HistoryRing :=
  if r.recalled.isEmpty then r.recallNext else (r.recalled, r.moveBack)

end HistoryRing
end LineRepl
