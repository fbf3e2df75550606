import LineRepl.Attempt
import LineRepl.Files.Tree
import LineRepl.Store.Basic
import LineRepl.Text.Utf8

/-!
A store that is a file of a tree. It holds bytes, so that an offset may fall inside a character and
the text need not be readable; a file that is missing reads as empty and can be created by writing,
but it has no lines and cannot be cut.
-/
namespace LineRepl

/-- The file at `path`, with the tree that it belongs to. -/
structure FileStore where
  tree : FileTree
  path : Path

namespace FileStore

/-- Runs an action on the tree of the store. -/
def onTree {α : Type} (act : FileTree.Action α) : EStateM IoError FileStore α :=
  Attempt.within tree (fun tree s => { s with tree }) act

/-- Offsets beyond this are not offsets of a file. -/
def offsetLimit : Nat := signedLimit

def load : EStateM IoError FileStore Text := fun s =>
  match s.tree.bytesOf s.path with
  | .ok data => match data.text? with
    | some t => .ok t s
    | none => .error .notUtf8 s
  | .error e => if e.kind = .notFound then .ok [] s else .error e s

def truncate (size : Nat) : EStateM IoError FileStore Unit := fun s =>
  if size < offsetLimit then onTree (FileTree.resizeFile s.path size) s
  else match FileTree.resizeFile s.path 0 s.tree with
    | .error e _ => .error e s
    | .ok .. => .error ⟨.invalidInput, "out of range integral type conversion attempted"⟩ s

/-- The bytes of the line at an offset. -/
def lineBytes (offset : Nat) (data : Bytes) : Bytes :=
  let rest := data.drop offset
  match rest.idxOf? 10 with
  | some i => rest.take (i + 1)
  | none => rest

def readLineAt (offset : Nat) : EStateM IoError FileStore Text := fun s =>
  match s.tree.bytesOf s.path with
  | .error e => .error e s
  | .ok data =>
    if offset < offsetLimit then
      match (lineBytes offset data).text? with
      | some t => .ok t s
      | none => .error .notUtf8 s
    else .error (.os .invalidArgument) s

instance : TextStore FileStore where
  load := load
  replace t := fun s => onTree (FileTree.writeFile s.path t.utf8) s
  append t := fun s => onTree (FileTree.appendFile s.path t.utf8) s
  truncate := truncate
  readLineAt := readLineAt

end FileStore
end LineRepl
