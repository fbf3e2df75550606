import LineRepl.Toml.Scan
import LineRepl.Toml.Value

/-!
Reading a TOML document. A document is a sequence of lines, each empty, a header that says which
table the lines after it belong to, or a key with its value. There is nothing to say about a text
that is no document but that it is none.
-/
namespace LineRepl.Toml

/-! ## Values -/

/-- A value that begins like a number. What is a date is no number, and what has a fraction or an
exponent is no integer. -/
def number (s : Text) : Option (Toml × Text) :=
  match Scan.dateTime s with
  | .found _ rest => some (.dateTime, rest)
  | .refused => none
  | .absent => match Scan.float s with
    | .found _ rest => some (.float, rest)
    | .refused => none
    | .absent => match Scan.integer s with
      | .found n rest => some (.integer n, rest)
      | _ => none

/-- A value without brackets or braces around it. -/
def scalar : Text → Option (Toml × Text)
  | 't' :: 'r' :: 'u' :: 'e' :: r => some (.boolean true, r)
  | 'f' :: 'a' :: 'l' :: 's' :: 'e' :: r => some (.boolean false, r)
  | 'i' :: 'n' :: 'f' :: r => some (.float, r)
  | 'n' :: 'a' :: 'n' :: r => some (.float, r)
  | [] => none
  | c :: r =>
    if c.isDigit || c = '+' || c = '-' then number (c :: r)
    else (Scan.string (c :: r)).map fun (t, rest) => (.text t, rest)

/-- The items of an array after its opening bracket. A comma may stand after the last one. -/
def itemsFrom (value : Text → Option (Toml × Text)) : Nat → Text → Option (List Toml × Text)
  | 0, _ => none
  | n + 1, s => do
    match ← Scan.skipVoid false s with
    | ']' :: r => some ([], r)
    | s =>
      let (v, s) ← value s
      match ← Scan.skipVoid false s with
      | ',' :: r => (itemsFrom value n r).map fun (vs, rest) => (v :: vs, rest)
      | ']' :: r => some ([v], r)
      | _ => none

/-- A dotted key and the text of its value. -/
def keyBeforeValue (s : Text) : Option ((List Text × Text) × Text) := do
  let (k, s) ← Scan.key s
  let s ← Scan.expect '=' s
  pure (k, Scan.skipSpace s)

/-- The pairs of an inline table up to its closing brace, added to those before them. No comma
stands after the last one, and all is on one line. -/
def pairsFrom (value : Text → Option (Toml × Text)) :
    Nat → Entries → Text → Option (Entries × Text)
  | 0, _, _ => none
  | n + 1, entries, s => do
    let ((path, k), s) ← keyBeforeValue s
    let (v, s) ← value s
    let entries ← insert true path k v ⟨false, false, true⟩ entries
    match Scan.skipSpace s with
    | ',' :: r => pairsFrom value n entries r
    | '}' :: r => some (entries, r)
    | _ => none

def inlineTable (value : Text → Option (Toml × Text)) (s : Text) : Option (Toml × Text) :=
  match Scan.skipSpace s with
  | '}' :: r => some (.table ⟨false, false, true⟩ [], r)
  | s => (pairsFrom value (s.length + 1) [] s).map fun (entries, rest) =>
      (.table ⟨false, false, true⟩ entries, rest)

/-- A value with at most so many brackets and braces around any part of it. -/
def valueWithin : Nat → Text → Option (Toml × Text)
  | depth + 1, '[' :: r =>
    (itemsFrom (valueWithin depth) (r.length + 1) r).map fun (vs, rest) => (.array vs, rest)
  | depth + 1, '{' :: r => inlineTable (valueWithin depth) r
  | _, s => scalar s

def value : Text → Option (Toml × Text) := valueWithin (Scan.depthLimit - 1)

/-! ## Lines -/

/-- What was read so far: the whole table, and the path of the table that lines now add to. -/
structure Document where
  entries : Entries := []
  heading : List Text := []

namespace Document

/-- Adds an entry to the table at hand. -/
def put (path : List Text) (k : Text) (v : Toml) (d : Document) : Option Document :=
  (changeAt false false (insert false path k v) d.heading {} d.entries).map fun entries =>
    { d with entries }

/-- Opens a table by a header. It must be new, but tables below it may have been made. -/
def openTable (path : List Text) (k : Text) (d : Document) : Option Document :=
  let change : TableOrigin → Entries → Option Entries := fun _ below =>
    match below.lookup k with
    | none => some (below ++ [(k, .table {} [])])
    | some (.table origin entries) =>
      if origin.implicit && !origin.dotted then some (replaceEntry k (.table {} entries) below)
      else none
    | some _ => none
  (changeAt false false change path {} d.entries).map fun entries => ⟨entries, path ++ [k]⟩

/-- Opens one more of the tables that share a header. -/
def openMember (path : List Text) (k : Text) (d : Document) : Option Document :=
  let change : TableOrigin → Entries → Option Entries := fun _ below =>
    match below.lookup k with
    | none => some (below ++ [(k, .tables [.table {} []])])
    | some (.tables members) => some (replaceEntry k (.tables (members ++ [.table {} []])) below)
    | some _ => none
  (changeAt false false change path {} d.entries).map fun entries => ⟨entries, path ++ [k]⟩

/-- Reads a line that is not empty. -/
def readLine (d : Document) : Text → Option (Document × Text)
  | '[' :: '[' :: r => do
    let ((path, k), s) ← Scan.key r
    let s ← Scan.expect ']' s
    let s ← Scan.expect ']' s
    let rest ← Scan.endLine s
    (d.openMember path k).map (·, rest)
  | '[' :: r => do
    let ((path, k), s) ← Scan.key r
    let s ← Scan.expect ']' s
    let rest ← Scan.endLine s
    (d.openTable path k).map (·, rest)
  | s => do
    let ((path, k), s) ← keyBeforeValue s
    let (v, s) ← value s
    let rest ← Scan.endLine s
    (d.put path k v).map (·, rest)

/-- Reads lines. Each takes a character, so the length of the text bounds their number. -/
def readLines : Nat → Document → Text → Option Document
  | 0, _, _ => none
  | n + 1, d, s =>
    match Scan.skipSpace s with
    | [] => some d
    | c :: r =>
      if c = '#' || c = '\n' || c = '\r' then (Scan.endLine (c :: r)).bind (readLines n d)
      else (d.readLine (c :: r)).bind fun (d, rest) => readLines n d rest

end Document

/-- The entries of the document that a text is, if it is one. A byte order mark may stand in front
of it. -/
def entries? (s : Text) : Option Entries :=
  let s := match s with
    | '\uFEFF' :: r => r
    | s => s
  (Document.readLines (s.length + 1) {} s).map Document.entries

end LineRepl.Toml
