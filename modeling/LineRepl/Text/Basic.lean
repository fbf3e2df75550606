/-!
Text as a list of characters, and its measure in stored bytes. Offsets into stored text count
UTF-8 bytes, so the functions that cut text at an offset say what happens inside a character:
there is no such cut.
-/
namespace LineRepl

/-- Text that is split, indexed and edited character by character. -/
abbrev Text := List Char

/-- What a file, a stream or a terminal holds. -/
abbrev Bytes := List UInt8

instance : Coe String Text := ⟨String.toList⟩

namespace Text

/-- The stored form of a text. -/
def utf8 (t : Text) : Bytes := t.flatMap String.utf8EncodeChar

def byteSize : Text → Nat
  | [] => 0
  | c :: r => c.utf8Size + byteSize r

/-- Cuts a text at a byte offset. There is no cut inside a character or past the end. -/
def cutAt : Nat → Text → Option (Text × Text)
  | 0, t => some ([], t)
  | _ + 1, [] => none
  | n + 1, c :: r =>
    if c.utf8Size ≤ n + 1 then
      (cutAt (n + 1 - c.utf8Size) r).map fun (a, b) => (c :: a, b)
    else none

/-- What stands before the last occurrence of `ch`. -/
def beforeLast (ch : Char) : Text → Option Text
  | [] => none
  | c :: r =>
    match beforeLast ch r with
    | some before => some (c :: before)
    | none => if c = ch then some [] else none

/-- Both sides of the first occurrence of `ch`, without it. -/
def splitFirst (ch : Char) : Text → Option (Text × Text)
  | [] => none
  | c :: r =>
    if c = ch then some ([], r) else (splitFirst ch r).map fun (a, b) => (c :: a, b)

/-- All fields between occurrences of `ch`; never empty, since no separator means one field. -/
def fields (ch : Char) : Text → List Text
  | [] => [[]]
  | c :: r =>
    if c = ch then [] :: fields ch r
    else match fields ch r with
      | [] => [[c]]
      | f :: fs => (c :: f) :: fs

/-- Drops a suffix when the text ends in it. -/
def dropSuffix? (suffix t : Text) : Option Text :=
  if suffix.isSuffixOf t then some (t.take (t.length - suffix.length)) else none

/-- Pads on the right with blanks up to a width in characters. -/
def padRight (width : Nat) (t : Text) : Text :=
  t ++ List.replicate (width - t.length) ' '

/-- Centres in a width, the odd blank on the right. -/
def centre (width : Nat) (t : Text) : Text :=
  let gap := width - t.length
  List.replicate (gap / 2) ' ' ++ t ++ List.replicate (gap - gap / 2) ' '

/-- Decimal digits of a number, without leading zeros. -/
def decimal (n : Nat) : Text := Nat.toDigits 10 n

end Text

/-- Machine words of 64 bits count to just below this. -/
def wordLimit : Nat := 0x10000000000000000

/-- With a sign they count from below zero by this much to just below it. -/
def signedLimit : Nat := 0x8000000000000000

end LineRepl
