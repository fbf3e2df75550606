import LineRepl.Text.Basic

/-!
The pieces below values in a TOML document: blanks and comments, numbers, dates, strings and keys.
Each scanner takes the text that is left and gives what it found with the rest. Some of what begins
like a piece can only be that piece: then there is no second try, which `refused` says.
-/
namespace LineRepl.Toml

/-- What a scanner comes to. -/
inductive Scan (α : Type)
  /-- The text does not begin with such a piece. -/
  | absent
  /-- The text begins with such a piece and breaks its rules. -/
  | refused
  | found (a : α) (rest : Text)

namespace Scan

/-! ## Blanks and comments -/

/-- A character that a comment may hold. -/
def inComment (c : Char) : Bool := c = '\t' || (' ' ≤ c && c ≠ '\x7f')

def skipSpace (s : Text) : Text := s.dropWhile fun c => c = ' ' || c = '\t'

/-- Drops one line end, of either kind. -/
def lineEnd? : Text → Option Text
  | '\n' :: r => some r
  | '\r' :: '\n' :: r => some r
  | _ => none

/-- Drops the rest of a line: blanks, a comment, and the line end unless the text ends. -/
def endLine (s : Text) : Option Text :=
  let s := match skipSpace s with
    | '#' :: r => r.dropWhile inComment
    | r => r
  if s.isEmpty then some [] else lineEnd? s

/-- Drops blanks, comments and line ends. The flag tells whether a comment is being dropped. -/
def skipVoid : Bool → Text → Option Text
  | false, '#' :: r => skipVoid true r
  | true, '\n' :: r => skipVoid false r
  | false, '\n' :: r => skipVoid false r
  | _, '\r' :: '\n' :: r => skipVoid false r
  | false, ' ' :: r => skipVoid false r
  | false, '\t' :: r => skipVoid false r
  | false, s => some s
  | true, [] => some []
  | true, c :: r => if inComment c then skipVoid true r else none

/-! ## Numbers -/

/-- The digits after a first one, with single underscores between digits. -/
def moreDigits (isDigit : Char → Bool) : Text → Option (Text × Text)
  | [] => some ([], [])
  | c :: r =>
    if isDigit c then (moreDigits isDigit r).map fun (ds, rest) => (c :: ds, rest)
    else if c = '_' then
      match r with
      | [] => none
      | d :: _ => if isDigit d then moreDigits isDigit r else none
    else some ([], c :: r)

/-- One or more digits with single underscores between them. -/
def digits (isDigit : Char → Bool) : Text → Option (Text × Text)
  | [] => none
  | c :: r =>
    if isDigit c then (moreDigits isDigit r).map fun (ds, rest) => (c :: ds, rest) else none

/-- Decimal digits of a whole number: a zero stands alone. -/
def wholeDigits : Text → Option (Text × Text)
  | '0' :: r => some (['0'], r)
  | s => digits Char.isDigit s

/-- Takes a sign. The flag tells whether it is a minus. -/
def sign : Text → Bool × Text
  | '+' :: r => (false, r)
  | '-' :: r => (true, r)
  | s => (false, s)

def digitValue (c : Char) : Nat :=
  if c.isDigit then c.toNat - '0'.toNat else c.toLower.toNat - 'a'.toNat + 10

def valueIn (base : Nat) (ds : Text) : Nat := ds.foldl (fun n c => n * base + digitValue c) 0

/-- Integers have 64 bits with a sign. -/
def integer? (negative : Bool) (n : Nat) : Option Int :=
  if negative then (if n ≤ signedLimit then some (-n) else none)
  else if n < signedLimit then some n else none

/-- An integer in another base, after the letter that names the base. -/
def basedInteger (base : Nat) (isDigit : Char → Bool) (s : Text) : Scan Int :=
  match digits isDigit s with
  | none => .refused
  | some (ds, rest) => match integer? false (valueIn base ds) with
    | some n => .found n rest
    | none => .refused

def isHexDigit (c : Char) : Bool :=
  c.isDigit || ('a' ≤ c && c ≤ 'f') || ('A' ≤ c && c ≤ 'F')

def isOctalDigit (c : Char) : Bool := '0' ≤ c && c ≤ '7'

def isBinaryDigit (c : Char) : Bool := c = '0' || c = '1'

def integer : Text → Scan Int
  | '0' :: 'x' :: r => basedInteger 16 isHexDigit r
  | '0' :: 'o' :: r => basedInteger 8 isOctalDigit r
  | '0' :: 'b' :: r => basedInteger 2 isBinaryDigit r
  | s =>
    let (negative, r) := sign s
    match wholeDigits r with
    | none => .refused
    | some (ds, rest) => match integer? negative (valueIn 10 ds) with
      | some n => .found n rest
      | none => .refused

/-- Whether the decimal `n · 10^(up - down)` is beyond the finite 64-bit floats, rounded to nearest.
Exponents far out of the range of those are decided by their size alone. -/
def overflows (n up down : Nat) : Bool :=
  let width := (Text.decimal n).length
  if n = 0 then false
  else if down + 400 < up then true
  else if up + width < down then false
  else
    let limit := Nat.pow 2 1024 - Nat.pow 2 970
    decide (limit * Nat.pow 10 (down - up) ≤ n * Nat.pow 10 (up - down))

/-- The exponent of a float: whether it is negative, and its digits. -/
def exponent (s : Text) : Option ((Bool × Nat) × Text) :=
  let (negative, r) := sign s
  (digits Char.isDigit r).map fun (ds, rest) => ((negative, valueIn 10 ds), rest)

def exponent? : Text → Option ((Bool × Nat) × Text)
  | 'e' :: r => exponent r
  | 'E' :: r => exponent r
  | s => some ((false, 0), s)

/-- A float that is written out is refused when it is too large, unless it is negative. -/
def checkedFloat (negative : Bool) (whole fraction : Text) :
    Option ((Bool × Nat) × Text) → Scan Unit
  | none => .refused
  | some ((down, power), rest) =>
    let n := valueIn 10 (whole ++ fraction)
    let large := if down then overflows n 0 (fraction.length + power)
      else overflows n power fraction.length
    if !negative && large then .refused else .found () rest

def specialFloat : Text → Scan Unit
  | 'i' :: 'n' :: 'f' :: r => .found () r
  | 'n' :: 'a' :: 'n' :: r => .found () r
  | _ => .absent

def float (s : Text) : Scan Unit :=
  let (negative, r) := sign s
  match wholeDigits r with
  | none => specialFloat r
  | some (whole, '.' :: r) =>
    match digits Char.isDigit r with
    | none => .refused
    | some (fraction, r) => checkedFloat negative whole fraction (exponent? r)
  | some (whole, 'e' :: r) => checkedFloat negative whole [] (exponent r)
  | some (whole, 'E' :: r) => checkedFloat negative whole [] (exponent r)
  | some _ => .absent

/-! ## Dates and times -/

/-- Exactly so many digits, as a number in a range. -/
def fixedDigits (count least greatest : Nat) (s : Text) : Option (Nat × Text) :=
  let ds := s.take count
  let n := valueIn 10 ds
  if ds.length = count && ds.all Char.isDigit && least ≤ n && n ≤ greatest then
    some (n, s.drop count)
  else none

def expect (c : Char) : Text → Option Text
  | d :: r => if c = d then some r else none
  | [] => none

/-- A time of day after its hour and a colon. A minute may have a leap second, and fractions have
any number of digits. -/
def restOfTime (s : Text) : Option Text := do
  let (_, s) ← fixedDigits 2 0 59 s
  let s ← expect ':' s
  let (_, s) ← fixedDigits 2 0 60 s
  match s with
  | '.' :: d :: r => if d.isDigit then some (r.dropWhile Char.isDigit) else none
  | '.' :: [] => none
  | s => some s

def time (s : Text) : Scan Unit :=
  match fixedDigits 2 0 23 s with
  | none => .absent
  | some (_, ':' :: r) => match restOfTime r with
    | some rest => .found () rest
    | none => .refused
  | some _ => .absent

def offset? : Text → Option Text
  | 'Z' :: r => some r
  | 'z' :: r => some r
  | c :: r =>
    if c = '+' || c = '-' then do
      let (_, s) ← fixedDigits 2 0 23 r
      let s ← expect ':' s
      let (_, s) ← fixedDigits 2 0 59 s
      pure s
    else some (c :: r)
  | [] => some []

def isLeapYear (year : Nat) : Bool := year % 4 == 0 && (year % 100 != 0 || year % 400 == 0)

def daysIn (year month : Nat) : Nat :=
  if month = 2 then (if isLeapYear year then 29 else 28)
  else if month = 4 || month = 6 || month = 9 || month = 11 then 30
  else 31

/-- A date after its year and a hyphen. -/
def restOfDate (year : Nat) (s : Text) : Option Text := do
  let (month, s) ← fixedDigits 2 1 12 s
  let s ← expect '-' s
  let (day, s) ← fixedDigits 2 1 31 s
  if day ≤ daysIn year month then some s else none

/-- A time of day after a date, if one follows. -/
def timeAfterDate (s : Text) : Scan Unit :=
  match s with
  | c :: r =>
    if c = 'T' || c = 't' || c = ' ' then
      match time r with
      | .found _ rest => match offset? rest with
        | some rest => .found () rest
        | none => .refused
      | .refused => .refused
      | .absent => .found () s
    else .found () s
  | [] => .found () s

def dateTime (s : Text) : Scan Unit :=
  match fixedDigits 4 0 9999 s with
  | some (year, '-' :: r) => match restOfDate year r with
    | some rest => timeAfterDate rest
    | none => .refused
  | _ => time s

/-! ## Strings -/

/-- A character that stands for itself in a string on one line between double quotes. -/
def plainBasic (c : Char) : Bool :=
  c = '\t' || (' ' ≤ c && c ≠ '"' && c ≠ '\\' && c ≠ '\x7f')

def plainLiteral (c : Char) : Bool :=
  c = '\t' || (' ' ≤ c && c ≠ '\'' && c ≠ '\x7f')

/-- The character of a number, unless the number names none. -/
def scalar? (n : Nat) : Option Char :=
  if n < 0xD800 || (0xDFFF < n && n < 0x110000) then some (Char.ofNat n) else none

/-- Exactly so many hexadecimal digits, as a character. -/
def hexEscape (count : Nat) (s : Text) : Option (Char × Text) :=
  let ds := s.take count
  if ds.length = count && ds.all isHexDigit then
    (scalar? (valueIn 16 ds)).map fun c => (c, s.drop count)
  else none

/-- What follows a backslash, as the character it stands for. -/
def escape : Text → Option (Char × Text)
  | 'b' :: r => some ('\x08', r)
  | 't' :: r => some ('\t', r)
  | 'n' :: r => some ('\n', r)
  | 'f' :: r => some ('\x0c', r)
  | 'r' :: r => some ('\r', r)
  | '"' :: r => some ('"', r)
  | '\\' :: r => some ('\\', r)
  | 'u' :: r => hexEscape 4 r
  | 'U' :: r => hexEscape 8 r
  | _ => none

/-- A string after its opening double quote. Each step takes a character, so the length of the text
bounds their number. -/
def basicFrom : Nat → Text → Option (Text × Text)
  | 0, _ => none
  | _, [] => none
  | n + 1, c :: r =>
    if c = '"' then some ([], r)
    else if c = '\\' then
      (escape r).bind fun (e, r) => (basicFrom n r).map fun (t, rest) => (e :: t, rest)
    else if plainBasic c then (basicFrom n r).map fun (t, rest) => (c :: t, rest)
    else none

def basic (s : Text) : Option (Text × Text) := basicFrom (s.length + 1) s

def literal (s : Text) : Option (Text × Text) :=
  match s.dropWhile plainLiteral with
  | '\'' :: rest => some (s.takeWhile plainLiteral, rest)
  | _ => none

/-- How many of a quote stand at the front, and what follows them. -/
def quotes (q : Char) (s : Text) : Nat × Text :=
  ((s.takeWhile (· = q)).length, s.dropWhile (· = q))

def skipBlankLines : Text → Text
  | '\r' :: '\n' :: r => skipBlankLines r
  | c :: r => if c = ' ' || c = '\t' || c = '\n' then skipBlankLines r else c :: r
  | [] => []

/-- A backslash at the end of a line drops the line end and all blanks and line ends after it. -/
def joinedLine? (s : Text) : Option Text := (lineEnd? (skipSpace s)).map skipBlankLines

/-- A string over several lines. Up to two quotes stand for themselves; three end the string, and
of up to five the last three do. -/
def multilineFrom (q : Char) : Nat → Text → Option (Text × Text)
  | 0, _ => none
  | _, [] => none
  | n + 1, c :: r =>
    if c = q then
      let (count, rest) := quotes q (c :: r)
      if count < 3 then
        (multilineFrom q n rest).map fun (t, rest) => (List.replicate count q ++ t, rest)
      else if count ≤ 5 then some (List.replicate (count - 3) q, rest)
      else some (List.replicate 2 q, List.replicate (count - 5) q ++ rest)
    else if c = '\\' && q = '"' then
      match joinedLine? r with
      | some r => multilineFrom q n r
      | none => (escape r).bind fun (e, r) =>
        (multilineFrom q n r).map fun (t, rest) => (e :: t, rest)
    else match lineEnd? (c :: r) with
      | some r => (multilineFrom q n r).map fun (t, rest) => ('\n' :: t, rest)
      | none =>
        if (if q = '"' then plainBasic c else plainLiteral c) then
          (multilineFrom q n r).map fun (t, rest) => (c :: t, rest)
        else none

/-- A line end right after the opening quotes does not count. -/
def multiline (q : Char) (s : Text) : Option (Text × Text) :=
  let s := (lineEnd? s).getD s
  multilineFrom q (s.length + 1) s

def string : Text → Option (Text × Text)
  | '"' :: '"' :: '"' :: r => multiline '"' r
  | '\'' :: '\'' :: '\'' :: r => multiline '\'' r
  | '"' :: r => basic r
  | '\'' :: r => literal r
  | _ => none

/-! ## Keys -/

def isBareKey (c : Char) : Bool := c.isAlphanum || c = '-' || c = '_'

def simpleKey : Text → Option (Text × Text)
  | '"' :: r => basic r
  | '\'' :: r => literal r
  | s =>
    if (s.takeWhile isBareKey).isEmpty then none
    else some (s.takeWhile isBareKey, s.dropWhile isBareKey)

/-- Keys with dots between them; blanks may stand around each. -/
def keysFrom : Nat → Text → Option (List Text × Text)
  | 0, _ => none
  | n + 1, s =>
    (simpleKey (skipSpace s)).bind fun (key, r) =>
      match skipSpace r with
      | '.' :: r => (keysFrom n r).map fun (keys, rest) => (key :: keys, rest)
      | r => some ([key], r)

/-- Keys and values are nested less deep than this. -/
def depthLimit : Nat := 80

/-- A dotted key: the path to a table, and the key in it. -/
def key (s : Text) : Option ((List Text × Text) × Text) :=
  (keysFrom (s.length + 1) s).bind fun (keys, rest) =>
    match keys.getLast? with
    | some last => if keys.length < depthLimit then some ((keys.dropLast, last), rest) else none
    | none => none

end Scan
end LineRepl.Toml
