import LineRepl.Failure
import LineRepl.Text.Basic

/-!
A stream of single bytes as a terminal or a pipe delivers it. A read may be interrupted, which only
means that it is tried again; it may find the end of the stream or fail, now or for good. One byte
can be pushed back.
-/
namespace LineRepl

/-- What one read of a stream finds. -/
inductive Reading
  | byte (b : UInt8)
  | interrupted
  | ended
  | failed (e : IoError)
  deriving DecidableEq, Repr

structure InputStream where
  readings : List Reading
  /-- The error of every read after those, or none at the end of the stream. -/
  lastError : Option IoError := none
  pushedBack : Option UInt8 := none
  deriving Repr

namespace InputStream

/-- A stream of bytes that ends. -/
def ofBytes (b : Bytes) : InputStream := ⟨b.map .byte, none, none⟩

/-- Reads until one read is not interrupted. -/
def settle (lastError : Option IoError) :
    List Reading → EStateM.Result IoError (List Reading) (Option UInt8)
  | [] => match lastError with
    | some e => .error e []
    | none => .ok none []
  | .interrupted :: r => settle lastError r
  | .byte b :: r => .ok (some b) r
  | .ended :: r => .ok none r
  | .failed e :: r => .error e r

/-- The next byte, or none at the end. -/
def nextByte : EStateM IoError InputStream (Option UInt8) := fun s =>
  match s.pushedBack with
  | some b => .ok (some b) { s with pushedBack := none }
  | none => match settle s.lastError s.readings with
    | .ok b r => .ok b { s with readings := r }
    | .error e r => .error e { s with readings := r }

def pushBack (b : UInt8) (s : InputStream) : InputStream := { s with pushedBack := some b }

/-- A bound on how many bytes are still to come. -/
def remaining (s : InputStream) : Nat := s.readings.length + s.pushedBack.toList.length

theorem settle_ok_length {lastError : Option IoError} {r r' : List Reading} {b : UInt8}
    (h : settle lastError r = .ok (some b) r') : r'.length < r.length := by
  fun_induction settle lastError r with
  | case1 => simp at h
  | case2 => simp at h
  | case3 r ih => exact Nat.lt_succ_of_lt (ih h)
  | case4 b r => simp only [EStateM.Result.ok.injEq] at h; simp [h.2]
  | case5 r => simp at h
  | case6 e r => simp at h

theorem settle_none_length {lastError : Option IoError} {r r' : List Reading}
    (h : settle lastError r = .ok none r') : r'.length ≤ r.length := by
  fun_induction settle lastError r with
  | case1 => simp at h
  | case2 => simp_all
  | case3 r ih => exact Nat.le_succ_of_le (ih h)
  | case4 b r => simp at h
  | case5 r => simp_all
  | case6 e r => simp at h

/-- A byte that was read is gone from the stream. -/
theorem remaining_of_nextByte {s s' : InputStream} {b : UInt8}
    (h : nextByte s = .ok (some b) s') : s'.remaining < s.remaining := by
  unfold nextByte at h
  split at h
  · rename_i c hc
    simp only [EStateM.Result.ok.injEq, Option.some.injEq] at h
    obtain ⟨-, rfl⟩ := h
    simp [remaining, hc]
  · rename_i hc
    split at h
    · rename_i c r hr
      simp only [EStateM.Result.ok.injEq] at h
      obtain ⟨rfl, rfl⟩ := h
      simpa [remaining, hc] using settle_ok_length hr
    · simp at h

theorem remaining_of_nextByte_none {s s' : InputStream}
    (h : nextByte s = .ok none s') : s'.remaining ≤ s.remaining := by
  unfold nextByte at h
  split at h
  · simp at h
  · rename_i hc
    split at h
    · rename_i c r hr
      simp only [EStateM.Result.ok.injEq] at h
      obtain ⟨rfl, rfl⟩ := h
      simpa [remaining, hc] using settle_none_length hr
    · simp at h

theorem remaining_of_nextByte_le {b : Option UInt8} {s s' : InputStream}
    (h : nextByte s = .ok b s') : s'.remaining ≤ s.remaining := by
  cases b with
  | none => exact remaining_of_nextByte_none h
  | some b => exact Nat.le_of_lt (remaining_of_nextByte h)

/-- Pushing back the byte just read restores no more than was taken. -/
theorem remaining_pushBack {s s' : InputStream} {b c : UInt8}
    (h : nextByte s = .ok (some b) s') : (s'.pushBack c).remaining ≤ s.remaining := by
  unfold nextByte at h
  split at h
  · rename_i d hd
    simp only [EStateM.Result.ok.injEq, Option.some.injEq] at h
    obtain ⟨-, rfl⟩ := h
    simp [remaining, pushBack, hd]
  · rename_i hd
    split at h
    · rename_i d r hr
      simp only [EStateM.Result.ok.injEq] at h
      obtain ⟨rfl, rfl⟩ := h
      have := settle_ok_length hr
      simp only [remaining, pushBack, hd, Option.toList_some, Option.toList_none, List.length_cons,
        List.length_nil]
      omega
    · simp at h

end InputStream
end LineRepl
