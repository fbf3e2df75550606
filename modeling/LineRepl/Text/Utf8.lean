import LineRepl.Text.Basic

/-!
Reading stored bytes as text. The strict reading refuses bytes that are not UTF-8. The lossy one
puts U+FFFD in place of each longest run of bytes that begins a character and does not finish it,
and of each byte that begins none.
-/
namespace LineRepl.Bytes

/-- The text that the bytes store, if they are UTF-8. -/
def text? (b : Bytes) : Option Text :=
  (String.fromUTF8? ⟨b.toArray⟩).map String.toList

/-- Stands for bytes that are no character. -/
def replacement : Char := '\uFFFD'

/-- A character of which some bytes are read: the value so far, how many bytes are missing, and
the range of the next one. The second byte has a narrower range after some first bytes, which is
what keeps overlong forms and surrogates out. -/
structure Unfinished where
  value : Nat
  missing : Nat
  least : UInt8
  greatest : UInt8

/-- What a first byte that is not ASCII promises. -/
def Unfinished.begin? (b : UInt8) : Option Unfinished :=
  let n := b.toNat
  if n < 0xC2 then none
  else if n < 0xE0 then some ⟨n - 0xC0, 1, 0x80, 0xBF⟩
  else if n < 0xF0 then
    some ⟨n - 0xE0, 2, if n == 0xE0 then 0xA0 else 0x80, if n == 0xED then 0x9F else 0xBF⟩
  else if n < 0xF5 then
    some ⟨n - 0xF0, 3, if n == 0xF0 then 0x90 else 0x80, if n == 0xF4 then 0x8F else 0xBF⟩
  else none

/-- Takes the next byte, if it is in range. -/
def Unfinished.next? (u : Unfinished) (b : UInt8) : Option Unfinished :=
  if u.least ≤ b && b ≤ u.greatest then
    some ⟨u.value * 64 + (b.toNat - 0x80), u.missing - 1, 0x80, 0xBF⟩
  else none

/-- Reads on, with the character in progress if there is one. -/
def lossyFrom : Option Unfinished → Bytes → Text
  | none, [] => []
  | some _, [] => [replacement]
  | state, b :: r =>
    match state.bind (·.next? b) with
    | some u =>
      if u.missing = 0 then Char.ofNat u.value :: lossyFrom none r else lossyFrom (some u) r
    | none =>
      let broken : Text := if state.isSome then [replacement] else []
      if b < 0x80 then broken ++ Char.ofNat b.toNat :: lossyFrom none r
      else match Unfinished.begin? b with
        | some u => broken ++ lossyFrom (some u) r
        | none => broken ++ replacement :: lossyFrom none r

/-- The text of bytes that need not be UTF-8. -/
def lossyText (b : Bytes) : Text := lossyFrom none b

end LineRepl.Bytes
