import LineRepl.Proofs.KeyDecoding

/-! Whole streams of keys. Reading one key after the other until the stream ends gives the keys that
the table reads off all of its bytes, so no byte is lost between two keys and none is read twice. The
slot for a byte that is pushed back is empty whenever one is: with a push-back that fails on an
occupied slot the reader finds the same keys in every stream, also in one that fails. -/
namespace LineRepl

open Attempt

namespace Key

/-! ## The keys of some bytes -/

/-- All keys of some bytes, one after the other. -/
def decodeAll (bytes : Bytes) : List Key :=
  match _hd : decode bytes with
  | none => []
  | some (key, rest) => key :: decodeAll rest
termination_by bytes.length
decreasing_by exact length_of_decode _hd

theorem decodeAll_of_none {bytes : Bytes} (h : decode bytes = none) : decodeAll bytes = [] := by
  rw [decodeAll]
  split <;> simp_all

theorem decodeAll_of_some {bytes rest : Bytes} {key : Key} (h : decode bytes = some (key, rest)) :
    decodeAll bytes = key :: decodeAll rest := by
  rw [decodeAll]
  split <;> simp_all

/-- Every key takes at least one byte. -/
theorem length_decodeAll (bytes : Bytes) : (decodeAll bytes).length ≤ bytes.length := by
  fun_induction decodeAll bytes with
  | case1 bytes _ => exact Nat.zero_le _
  | case2 bytes key rest hd ih => exact Nat.lt_of_le_of_lt ih (length_of_decode hd)

/-- Reads keys until the end of the stream. -/
def readAll : EStateM IoError InputStream (List Key) := fun s =>
  match _hr : read s with
  | .ok none s' => .ok [] s'
  | .ok (some key) s' =>
    match readAll s' with
    | .ok keys s'' => .ok (key :: keys) s''
    | .error e s'' => .error e s''
  | .error e s' => .error e s'
termination_by s => s.remaining
decreasing_by exact remaining_of_read _hr

theorem readAll_of_none {s s' : InputStream} (h : read s = .ok none s') :
    readAll s = .ok [] s' := by
  rw [readAll]
  split <;> simp_all

theorem readAll_of_some {s s' s'' : InputStream} {key : Key} {keys : List Key}
    (h : read s = .ok (some key) s') (hs : readAll s' = .ok keys s'') :
    readAll s = .ok (key :: keys) s'' := by
  rw [readAll]
  split <;> simp_all

/-- The induction is on the keys of the bytes to come: what is still to come after one of them is
what the table has left over. -/
theorem readAll_delivers {s : InputStream} {bytes : Bytes} (h : s.Delivers bytes) :
    ∃ s', readAll s = .ok (decodeAll bytes) s' ∧ s'.Delivers [] := by
  induction bytes using decodeAll.induct generalizing s with
  | case1 bytes hd =>
    obtain ⟨s', hr, hs⟩ := read_delivers h
    rw [hd] at hr hs
    rw [decodeAll_of_none hd]
    exact ⟨s', readAll_of_none hr, hs⟩
  | case2 bytes key rest hd ih =>
    obtain ⟨s', hr, hs⟩ := read_of_decode h hd
    obtain ⟨s'', hrs, hss⟩ := ih hs
    rw [decodeAll_of_some hd]
    exact ⟨s'', readAll_of_some hr hrs, hss⟩

end Key

/-! ## Bytes pushed back -/

/-- A byte that was read, or the end, is found with nothing pushed back any more. -/
theorem InputStream.pushedBack_of_nextByte {s s' : InputStream} {b? : Option UInt8}
    (h : nextByte s = .ok b? s') : s'.pushedBack = none := by
  unfold nextByte at h
  split at h
  · cases h
    rfl
  · rename_i hs
    split at h
    · cases h
      exact hs
    · cases h

namespace Key

section PushBack

variable {push push' : UInt8 → EStateM IoError InputStream PUnit}
  (h : ∀ (b : UInt8) (s : InputStream), s.pushedBack = none → push b s = push' b s)
include h

theorem readThird_congr (first second : UInt8) :
    readThird push first second = readThird push' first second := by
  funext s
  simp only [readThird, bind_apply]
  cases hn : InputStream.nextByte s with
  | error e s' => rfl
  | ok third? s' =>
    cases third? with
    | none => rfl
    | some third =>
      have hp := h third s' (InputStream.pushedBack_of_nextByte hn)
      dsimp only
      split
      · rfl
      · rw [bind_apply, bind_apply, hp]

/-- What a push-back does on an occupied slot makes no difference to the keys that are read. -/
theorem readVia_congr : readVia push = readVia push' := by
  have ht : readThird push = readThird push' :=
    funext fun first => funext fun second => readThird_congr h first second
  simp only [readVia, readEscape, ht]

end PushBack

/-- A push-back that fails on an occupied slot. -/
def pushOntoEmpty (occupied : IoError) (b : UInt8) : EStateM IoError InputStream PUnit := fun s =>
  match s.pushedBack with
  | none => .ok ⟨⟩ (s.pushBack b)
  | some _ => .error occupied s

theorem readVia_pushOntoEmpty (occupied : IoError) : readVia (pushOntoEmpty occupied) = read := by
  refine readVia_congr ?_
  intro b s hs
  simp only [pushOntoEmpty, hs, pushBack, modify_apply]

/-- **Reading until the end of a stream gives the keys of its bytes**, however often a read of it is
interrupted. There are no more of them than bytes, and nothing is left then. No byte is ever pushed
back onto another one, on any stream. -/
theorem readAll_decodes {s : InputStream} {bytes : Bytes} (h : s.Delivers bytes) :
    (∃ s', readAll s = .ok (decodeAll bytes) s' ∧ s'.Delivers []) ∧
      (decodeAll bytes).length ≤ bytes.length ∧
      ∀ occupied, readVia (pushOntoEmpty occupied) = read :=
  ⟨readAll_delivers h, length_decodeAll bytes, readVia_pushOntoEmpty⟩

/-- Three escape sequences with interrupted reads before, inside and after them. -/
def interruptedStream : InputStream where
  readings := [.interrupted, .byte 0x1B, .byte 0x4F, .interrupted, .interrupted, .byte 0x50, .byte 0x1B,
    .byte 0x5B, .interrupted, .byte 0x41, .byte 0x1B, .byte 0x5B, .byte 0x33, .interrupted]

/-- The first sequence is not in the table, and the byte after it, which is read for it and pushed
back, begins an arrow; the stream ends inside the third. -/
theorem readAll_decodes_interrupted :
    interruptedStream.Delivers [0x1B, 0x4F, 0x50, 0x1B, 0x5B, 0x41, 0x1B, 0x5B, 0x33] ∧
      (∃ s', readAll interruptedStream = .ok [.other, .up, .other] s' ∧ s'.Delivers []) ∧
      ∀ occupied, readVia (pushOntoEmpty occupied) = read := by
  have hd : interruptedStream.Delivers [0x1B, 0x4F, 0x50, 0x1B, 0x5B, 0x41, 0x1B, 0x5B, 0x33] :=
    ⟨rfl, by simp [interruptedStream], rfl⟩
  have hk : decodeAll [0x1B, 0x4F, 0x50, 0x1B, 0x5B, 0x41, 0x1B, 0x5B, 0x33] =
      [.other, .up, .other] := by
    rw [decodeAll_of_some rfl, decodeAll_of_some rfl, decodeAll_of_some rfl, decodeAll_of_none rfl]
  obtain ⟨hr, -, hv⟩ := readAll_decodes hd
  rw [hk] at hr
  exact ⟨hd, hr, hv⟩

end Key
end LineRepl
