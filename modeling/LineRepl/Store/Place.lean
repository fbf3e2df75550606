import LineRepl.Store.Disk

/-!
A tree of files together with a text that is kept either in memory beside it or in one of its files.
-/
namespace LineRepl

inductive Keeping
  | memory (text : Text)
  | file (path : Path)
  deriving DecidableEq, Repr

structure Place where
  tree : FileTree
  keeping : Keeping

namespace Place

/-- Runs one call on the store that is in use. -/
def call {α : Type} (inMemory : EStateM IoError MemoryStore α)
    (onDisk : EStateM IoError FileStore α) : EStateM IoError Place α := fun p =>
  match p.keeping with
  | .memory text => match inMemory ⟨text⟩ with
    | .ok a s => .ok a { p with keeping := .memory s.text }
    | .error e s => .error e { p with keeping := .memory s.text }
  | .file path => match onDisk ⟨p.tree, path⟩ with
    | .ok a s => .ok a ⟨s.tree, .file s.path⟩
    | .error e s => .error e ⟨s.tree, .file s.path⟩

instance : TextStore Place where
  load := call TextStore.load TextStore.load
  replace t := call (TextStore.replace t) (TextStore.replace t)
  append t := call (TextStore.append t) (TextStore.append t)
  truncate size := call (TextStore.truncate size) (TextStore.truncate size)
  readLineAt offset := call (TextStore.readLineAt offset) (TextStore.readLineAt offset)

/-- What is kept, as bytes, if it can be read. -/
def bytes? (p : Place) : Option Bytes :=
  match p.keeping with
  | .memory text => some text.utf8
  | .file path => (p.tree.bytesOf path).toOption

end Place
end LineRepl
