import LineRepl.Failure
import LineRepl.Text.Basic

/-!
An output stream. It takes bytes until it is full; a write that does not fit is cut off where the
stream is full and fails, and so does every later write that is not empty. Writes may also fail for
reasons of their own, now and then.
-/
namespace LineRepl

structure Sink where
  written : Array UInt8 := #[]
  /-- How many bytes still fit, when there is a limit. -/
  room : Option Nat := none
  /-- The error of a write that does not fit. -/
  refusal : IoError := ⟨.other, "sink full"⟩
  /-- Which writes fail although they fit, counted from 0: after how many bytes, and with what
  error. -/
  faults : Nat → Option (Nat × IoError) := fun _ => none
  /-- How many writes were made. -/
  made : Nat := 0
  /-- How many of them failed. -/
  failed : Nat := 0

namespace Sink

/-- As many of the bytes as there is room for. -/
def fitting (bytes : Bytes) (s : Sink) : Bytes :=
  match s.room with
  | none => bytes
  | some n => bytes.take n

/-- Writes what fits. -/
def take (bytes : Bytes) (s : Sink) : Sink :=
  { s with
    written := s.written ++ fitting bytes s
    room := s.room.map (· - bytes.length)
    made := s.made + 1 }

def put (bytes : Bytes) : EStateM IoError Sink Unit := fun s =>
  match s.faults s.made with
  | some (n, e) => .error e { take (bytes.take n) s with failed := s.failed + 1 }
  | none =>
    if (fitting bytes s).length = bytes.length then .ok () (take bytes s)
    else .error s.refusal { take bytes s with failed := s.failed + 1 }

def print (t : Text) : EStateM IoError Sink Unit := put t.utf8

end Sink
end LineRepl
