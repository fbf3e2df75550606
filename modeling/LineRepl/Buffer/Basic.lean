import LineRepl.Attempt
import LineRepl.Buffer.Index
import LineRepl.Store.Basic

/-!
A program text in a store, with a cursor line. Every change goes to the store first; then the whole
store is scanned again and the cursor is put back into range, so the index never tells of a text
that is no longer there. Lines count from 1. The cursor may stand on any line but the empty one
after a final line feed.
-/
namespace LineRepl

/-- How the next write lands at the cursor. -/
inductive WriteMode
  | insert
  /-- Overwrites lines; holds for one write. -/
  | replace
  deriving DecidableEq, Repr

/-- What the buffer wanted of its store. -/
inductive StoreOperation
  | reset | scan | read | append | write | truncate | delete
  deriving DecidableEq, Repr

def StoreOperation.name : StoreOperation → String
  | reset => "reset"
  | scan => "scan"
  | read => "read"
  | append => "append"
  | write => "write"
  | truncate => "truncate"
  | delete => "delete"

structure BufferError where
  operation : StoreOperation
  cause : IoError
  deriving DecidableEq, Repr

def BufferError.message (e : BufferError) : String :=
  s!"{e.operation.name} failed: {e.cause.message}"

structure Buffer (σ : Type) where
  store : σ
  index : LineIndex := {}
  cursor : Nat := 1
  mode : WriteMode := .insert

namespace Buffer

variable {σ : Type}

/-- Ends the body of the program. -/
def closingBrace : Char := '}'

/-- Appended wherever the closing brace is put back. -/
def closingLine : Text := [closingBrace, '\n']

/-- An action on a buffer. A failed one keeps what was done before it failed. -/
abbrev Action (σ : Type) := EStateM BufferError (Buffer σ)

/-- Runs a store call for a named operation. -/
def onStore {α : Type} (operation : StoreOperation) (act : EStateM IoError σ α) : Action σ α :=
  (Attempt.within store (fun store b => { b with store }) act).adaptExcept (⟨operation, ·⟩)

theorem onStore_apply {α : Type} (operation : StoreOperation) (act : EStateM IoError σ α)
    (b : Buffer σ) :
    onStore operation act b = match act b.store with
      | .ok a store => .ok a { b with store }
      | .error e store => .error ⟨operation, e⟩ { b with store } := by
  rw [onStore, Attempt.adaptExcept_apply, Attempt.within_apply]
  cases act b.store <;> rfl

def lineCount (b : Buffer σ) : Nat := b.index.lineCount

def hasLine (b : Buffer σ) (line : Nat) : Bool := b.index.contains line

/-- The nearest line on which the cursor may stand. -/
def clamp (count cursor : Nat) : Nat := max 1 (min cursor (count - 1))

/-- Moves the cursor, unless it may not stand on that line. -/
def setCursor (line : Nat) (b : Buffer σ) : Buffer σ :=
  if 1 ≤ line ∧ line < b.lineCount then { b with cursor := line } else b

def setMode (mode : WriteMode) (b : Buffer σ) : Buffer σ := { b with mode }

variable [TextStore σ]

/-- Scans the store and puts the cursor back into range. -/
def rescan : Action σ Unit := do
  let text ← onStore .scan TextStore.load
  modify fun b =>
    let index := LineIndex.scan text
    { b with index, cursor := clamp index.lineCount b.cursor }

/-- Puts a text in place of the whole store. -/
def reset (text : Text) : Action σ Unit := do
  onStore .reset (TextStore.replace text)
  rescan

def contents : Action σ Text := onStore .read TextStore.load

/-- The text of a line without its line feed; empty for a line that is not there. -/
def line (n : Nat) : Action σ Text := fun b =>
  match b.index.offset? n with
  | none => .ok [] b
  | some offset => (Text.dropFeed <$> onStore .read (TextStore.readLineAt offset)) b

/-- The text of the last line, or of the line before it when the text ends in a line feed. -/
def lastLine : Action σ Text := do
  let count := (← get).lineCount
  let last ← line count
  if last.isEmpty && 1 < count then line (count - 1) else pure last

def listing : Action σ (List Text) := Text.lines <$> contents

/-- Adds a text at the end and moves the cursor down one line. -/
def append (text : Text) : Action σ Unit := do
  onStore .append (TextStore.append text)
  modify fun b => { b with cursor := b.cursor + 1 }
  rescan

/-- Lays one line into others at a place: before the line that is there or over it, and behind all of
them where there is none. -/
def lay (mode : WriteMode) (place : Nat) (line : Text) (lines : List Text) : List Text :=
  if place < lines.length then
    match mode with
    | .insert => lines.insertIdx place line
    | .replace => lines.set place line
  else lines ++ [line]

/-- Lays new lines into others one by one, each at the place after the one before. -/
def layAll (mode : WriteMode) (place : Nat) : List Text → List Text → List Text
  | [], lines => lines
  | line :: rest, lines => layAll mode (place + 1) rest (lay mode place line lines)

/-- Writes a text at the cursor. Inside the text the cursor moves down one line; past its end the
new lines are added and the cursor goes to the last one. -/
def write (text : Text) : Action σ Unit := do
  let old := (← contents).pieces
  let b ← get
  let place := b.cursor - 1
  let (new, cursor) :=
    if place < old.length then (layAll b.mode place text.pieces old, b.cursor + 1)
    else
      let new := old ++ text.pieces
      (new, new.length)
  onStore .write (TextStore.replace new.flatten)
  modify fun b => { b with cursor, mode := .insert }
  rescan

/-- Cuts the text before the last `ch`, unless that is its first character. Tells whether anything
was cut. -/
def eraseThrough (ch : Char) : Action σ Bool := do
  let text ← contents
  match text.beforeLast ch with
  | some (c :: r) =>
    onStore .truncate (TextStore.truncate (Text.byteSize (c :: r)))
    rescan
    pure true
  | _ =>
    rescan
    pure false

/-- Removes `size + 1` lines from `start` on, as far as they are there. A start that is no stored
line removes nothing, and line 0 does not even rescan. -/
def deleteLines (start size : Nat) : Action σ Unit := do
  if start = 0 then return
  let old := (← contents).pieces
  let place := start - 1
  if place < old.length then
    onStore .delete (TextStore.replace (old.take place ++ old.drop (place + size + 1)).flatten)
  rescan

/-- Drops the last closing brace with what follows it, appends a closing line, and puts the cursor
back. -/
def reseal : Action σ Unit := do
  let cursor := (← get).cursor
  let _ ← eraseThrough closingBrace
  append closingLine
  modify (setCursor cursor)

/-- A buffer over whatever the store holds. -/
def openStore (store : σ) : Except BufferError (Buffer σ) :=
  match rescan { store } with
  | .ok _ b => .ok b
  | .error e _ => .error e

/-- A buffer over a store that is overwritten with a skeleton, the cursor on the last line but one
of those where it may stand. -/
def withSkeleton (store : σ) (skeleton : Text) : Except BufferError (Buffer σ) :=
  match openStore store with
  | .error e => .error e
  | .ok b => match reset skeleton b with
    | .error e _ => .error e
    | .ok _ b => .ok { b with cursor := max 1 (b.lineCount - 2) }

end Buffer
end LineRepl
