import LineRepl.Text.Basic

/-!
Dates as they stand in the log: weekday, day, month, year and time of day, all of fixed width.
-/
namespace LineRepl.Date

def isLeap (year : Nat) : Bool :=
  year % 4 == 0 && (year % 100 != 0 || year % 400 == 0)

def yearDays (year : Nat) : Nat := if isLeap year then 366 else 365

def monthDays (year : Nat) : List (String × Nat) :=
  [("Jan", 31), ("Feb", if isLeap year then 29 else 28), ("Mar", 31), ("Apr", 30), ("May", 31),
    ("Jun", 30), ("Jul", 31), ("Aug", 31), ("Sep", 30), ("Oct", 31), ("Nov", 30), ("Dec", 31)]

/-- Finds the year of a day counted from the first of January of `year`. The number of years tried
is bounded by the first argument. -/
def yearOf : Nat → Nat → Nat → Nat × Nat
  | 0, year, day => (year, day)
  | n + 1, year, day =>
    if day < yearDays year then (year, day) else yearOf n (year + 1) (day - yearDays year)

/-- Finds the month of a day of a year, both counted from 0. -/
def monthOf : List (String × Nat) → Nat → String × Nat
  | [], day => ("", day)
  | (name, days) :: rest, day => if day < days then (name, day) else monthOf rest (day - days)

def weekday (day : Nat) : String :=
  (["Thu", "Fri", "Sat", "Sun", "Mon", "Tue", "Wed"][day % 7]?).getD ""

/-- A number with zeros before it. -/
def padded (width n : Nat) : Text :=
  List.replicate (width - (Text.decimal n).length) '0' ++ Text.decimal n

/-- The date of a number of seconds since the first of January 1970. -/
def format (secs : Nat) : Text :=
  let day := secs / 86400
  let time := secs % 86400
  -- Days of the 400 years that the calendar repeats after are taken off first.
  let cycles := day / 146097
  let (year, dayOfYear) := yearOf 400 1970 (day % 146097)
  let (month, dayOfMonth) := monthOf (monthDays year) dayOfYear
  weekday day ++ ", " ++ padded 2 (dayOfMonth + 1) ++ " " ++ month ++ " " ++
    padded 4 (year + 400 * cycles) ++ " " ++ padded 2 (time / 3600) ++ ":" ++
    padded 2 (time / 60 % 60) ++ ":" ++ padded 2 (time % 60) ++ " GMT"

end LineRepl.Date
