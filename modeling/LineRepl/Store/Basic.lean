import LineRepl.Failure
import LineRepl.Text.Lines

/-!
Where the text of a buffer is kept. A store holds one text, is addressed by byte offsets, and may
fail in each of its five operations; a failed one leaves the next state to the store. The plainest
store keeps the text in memory and fails only when it is asked to cut inside a character.
-/
namespace LineRepl

class TextStore (σ : Type) where
  /-- The whole text. A store that does not exist yet reads as empty. -/
  load : EStateM IoError σ Text
  /-- Puts a text in place of the whole store. -/
  replace : Text → EStateM IoError σ Unit
  /-- Adds a text at the end. -/
  append : Text → EStateM IoError σ Unit
  /-- Cuts the store down to a size in bytes. -/
  truncate : Nat → EStateM IoError σ Unit
  /-- Reads from a byte offset through the next line feed or to the end. -/
  readLineAt : Nat → EStateM IoError σ Text

/-- A text in memory. -/
structure MemoryStore where
  text : Text
  deriving DecidableEq, Repr

namespace MemoryStore

/-- A size past the end changes nothing. -/
def truncate (size : Nat) : EStateM IoError MemoryStore Unit := fun s =>
  if s.text.byteSize ≤ size then .ok () s
  else match s.text.cutAt size with
    | some (front, _) => .ok () ⟨front⟩
    | none => .error ⟨.invalidInput, s!"offset {size} is not a character boundary"⟩ s

/-- The rest of the line at an offset; nothing where no character begins. -/
def lineAt (offset : Nat) (s : MemoryStore) : Text :=
  match s.text.cutAt offset with
  | some (_, rest) => rest.firstPiece
  | none => []

instance : TextStore MemoryStore where
  load := fun s => .ok s.text s
  replace t := fun _ => .ok () ⟨t⟩
  append t := fun s => .ok () ⟨s.text ++ t⟩
  truncate := truncate
  readLineAt offset := fun s => .ok (lineAt offset s) s

end MemoryStore
end LineRepl
