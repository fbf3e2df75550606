import LineRepl.Attempt
import LineRepl.Terminal.Input

/-!
Keys decoded from bytes. One byte is one key, except that an escape byte begins a sequence for an
arrow or the forward delete key. A sequence that is none of these costs its first three bytes; the
byte after them is read again.
-/
namespace LineRepl

inductive Key
  /-- Printable ASCII, blank through tilde. -/
  | char (c : Char)
  | enter | interrupt | backspace | left | right | up | down | deleteForward
  /-- Anything else; it has no effect. -/
  | other
  deriving DecidableEq, Repr

namespace Key

open Attempt

def escape : UInt8 := 0x1B

/-- The key of a byte that begins no sequence. -/
def ofByte (b : UInt8) : Key :=
  if b = 0x0D ∨ b = 0x0A then .enter
  else if b = 0x03 then .interrupt
  else if b = 0x7F then .backspace
  else if 0x20 ≤ b ∧ b ≤ 0x7E then .char (Char.ofNat b.toNat)
  else .other

/-- The arrow that an escape byte and these two bytes stand for. -/
def arrow? (first second : UInt8) : Option Key :=
  if first = 0x5B then
    if second = 0x41 then some .up
    else if second = 0x42 then some .down
    else if second = 0x43 then some .right
    else if second = 0x44 then some .left
    else none
  else none

section Reading

variable (push : UInt8 → EStateM IoError InputStream PUnit)

/-- Reads the rest of a sequence that is no arrow. A byte that is not part of it is pushed back. -/
def readThird (first second : UInt8) : EStateM IoError InputStream Key := do
  match ← InputStream.nextByte with
  | none => pure .other
  | some third =>
    if first = 0x5B ∧ second = 0x33 ∧ third = 0x7E then pure .deleteForward
    else
      push third
      pure .other

def readEscape : EStateM IoError InputStream Key := do
  let first? ← InputStream.nextByte
  let second? ← InputStream.nextByte
  match first?, second? with
  | some first, some second =>
    match arrow? first second with
    | some key => pure key
    | none => readThird push first second
  | _, _ => pure .other

/-- The next key, or none at the end of the stream, with a push-back of one's own. -/
def readVia : EStateM IoError InputStream (Option Key) := do
  match ← InputStream.nextByte with
  | none => pure none
  | some b => if b = escape then some <$> readEscape push else pure (some (ofByte b))

end Reading

/-- Pushes a byte back, whatever was pushed back before. -/
def pushBack (b : UInt8) : EStateM IoError InputStream PUnit := modify (InputStream.pushBack b)

/-- The next key, or none at the end of the stream. -/
def read : EStateM IoError InputStream (Option Key) := readVia pushBack

theorem remaining_of_readThird {first second : UInt8} {s s' : InputStream} {key : Key}
    (h : readThird pushBack first second s = .ok key s') : s'.remaining ≤ s.remaining := by
  simp only [readThird, bind_apply] at h
  split at h
  · rename_i third? s₁ h₁
    cases third? with
    | none =>
      simp only [pure_apply, EStateM.Result.ok.injEq] at h
      exact h.2 ▸ InputStream.remaining_of_nextByte_le h₁
    | some third =>
      dsimp only at h
      split at h
      · simp only [pure_apply, EStateM.Result.ok.injEq] at h
        exact h.2 ▸ InputStream.remaining_of_nextByte_le h₁
      · simp only [pushBack, bind_apply, modify_apply, pure_apply, EStateM.Result.ok.injEq] at h
        exact h.2 ▸ InputStream.remaining_pushBack h₁
  · simp at h

theorem remaining_of_readEscape {s s' : InputStream} {key : Key}
    (h : readEscape pushBack s = .ok key s') : s'.remaining ≤ s.remaining := by
  simp only [readEscape, bind_apply] at h
  split at h
  · rename_i b₁ s₁ h₁
    split at h
    · rename_i b₂ s₂ h₂
      have le := Nat.le_trans (InputStream.remaining_of_nextByte_le h₂)
        (InputStream.remaining_of_nextByte_le h₁)
      rcases b₁ with _ | first <;> rcases b₂ with _ | second
      case some.some =>
        dsimp only at h
        cases ha : arrow? first second with
        | some key =>
          simp only [ha, pure_apply, EStateM.Result.ok.injEq] at h
          exact h.2 ▸ le
        | none =>
          simp only [ha] at h
          exact Nat.le_trans (remaining_of_readThird h) le
      all_goals
        simp only [pure_apply, EStateM.Result.ok.injEq] at h
        exact h.2 ▸ le
    · simp at h
  · simp at h

/-- A key that was read is gone from the stream. -/
theorem remaining_of_read {s s' : InputStream} {key : Key}
    (h : read s = .ok (some key) s') : s'.remaining < s.remaining := by
  simp only [read, readVia, bind_apply] at h
  split at h
  · rename_i b? s₁ h₁
    cases b? with
    | none => simp [pure_apply] at h
    | some b =>
      have h₁ := InputStream.remaining_of_nextByte h₁
      dsimp only at h
      split at h
      · simp only [map_apply] at h
        split at h
        · rename_i k s₂ h₂
          simp only [EStateM.Result.ok.injEq] at h
          exact h.2 ▸ Nat.lt_of_le_of_lt (remaining_of_readEscape h₂) h₁
        · simp at h
      · simp only [pure_apply, EStateM.Result.ok.injEq] at h
        exact h.2 ▸ h₁
  · simp at h

end Key
end LineRepl
