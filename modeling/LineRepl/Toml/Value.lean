import LineRepl.Text.Basic

/-!
Values of a TOML document, and how a document grows. A table knows how it came about, because that
decides whether it may still be added to: a table that a header named is closed to dotted keys, one
that a dotted key made is closed to headers, and an inline table is closed to both.
-/
namespace LineRepl

/-- How a table came about. -/
structure TableOrigin where
  /-- Made on the way to another table, not named itself. -/
  implicit : Bool := false
  /-- Made by a dotted key. -/
  dotted : Bool := false
  /-- Written between braces. -/
  inline : Bool := false
  deriving DecidableEq, Repr

inductive Toml
  | text (t : Text)
  | integer (n : Int)
  | float
  | boolean (b : Bool)
  | dateTime
  | array (items : List Toml)
  | table (origin : TableOrigin) (entries : List (Text × Toml))
  /-- Tables that share a header in double brackets, oldest first. -/
  | tables (members : List Toml)

namespace Toml

abbrev Entries := List (Text × Toml)

/-- Puts a value in place of the one under a key. -/
def replaceEntry (key : Text) (v : Toml) (entries : Entries) : Entries :=
  entries.map fun (k, old) => if k = key then (k, v) else (k, old)

/-- Goes down a path of keys and changes the table there. Tables that are missing are made, and
the last of several tables stands for all. Nothing but a table can be gone through; with `dotted`
not even a table that was named by a header. -/
def changeAt (inline dotted : Bool) (change : TableOrigin → Entries → Option Entries) :
    List Text → TableOrigin → Entries → Option Entries
  | [], origin, entries => change origin entries
  | key :: path, _, entries =>
    match entries.lookup key with
    | none =>
      let origin : TableOrigin := ⟨true, dotted, inline⟩
      (changeAt inline dotted change path origin []).map fun below =>
        entries ++ [(key, .table origin below)]
    | some (.table origin below) =>
      if origin.inline != inline || (dotted && !origin.implicit) then none
      else (changeAt inline dotted change path origin below).map fun below =>
        replaceEntry key (.table origin below) entries
    | some (.tables members) =>
      match members.getLast? with
      | some (.table origin below) =>
        (changeAt inline dotted change path origin below).map fun below =>
          replaceEntry key (.tables (members.dropLast ++ [.table origin below])) entries
      | _ => none
    | some _ => none

/-- Adds a value under a dotted key. The key must be new, and the table it goes to must have been
made by dotted keys exactly when the key has dots. -/
def insert (inline : Bool) (path : List Text) (key : Text) (v : Toml) (origin : TableOrigin)
    (entries : Entries) : Option Entries :=
  changeAt inline true
    (fun origin below =>
      if origin.dotted == path.isEmpty || (below.lookup key).isSome then none
      else some (below ++ [(key, v)]))
    path origin entries

end Toml
end LineRepl
