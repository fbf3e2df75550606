import LineRepl.Shell.Arithmetic

/-!
Escapes and formats, as the commands `echo` and `printf` write them.
-/
namespace LineRepl.Shell.Format

/-- Where an escape stands. -/
inductive Place
  | echoed
  | format
  /-- In an argument that a format prints with its escapes. -/
  | argument
  deriving DecidableEq, Repr

def isOctal (c : Char) : Bool := '0' ≤ c && c ≤ '7'

/-- The byte of up to three octal digits. -/
def octal (t : Text) : Char × Text :=
  let ds := (t.take 3).takeWhile isOctal
  (Char.ofNat (Nat.ofDigitChars 8 ds 0 % 256), t.drop ds.length)

def named? : Char → Option Char
  | 'a' => some '\x07'
  | 'b' => some '\x08'
  | 'f' => some '\x0c'
  | 'n' => some '\n'
  | 'r' => some '\r'
  | 't' => some '\t'
  | 'v' => some '\x0b'
  | '\\' => some '\\'
  | _ => none

/-- What follows a backslash: its character, or none if all output stops there. A backslash that
begins no escape stands for itself. -/
def escape (place : Place) : Text → Option Char × Text
  | [] => (some '\\', [])
  | c :: r =>
    if let some e := named? c then (some e, r)
    else if c = 'c' && place != .format then (none, [])
    else if c = '0' && place != .format then
      let (e, rest) := octal r
      (some e, rest)
    else if isOctal c && place != .echoed then
      let (e, rest) := octal (c :: r)
      (some e, rest)
    else if c = '"' && place = .format then (some '"', r)
    else (some '\\', c :: r)

/-- Replaces escapes. The flag tells whether output goes on after the text. -/
def unescapeFrom (place : Place) : Nat → Text → Text × Bool
  | 0, _ => ([], true)
  | _, [] => ([], true)
  | n + 1, '\\' :: r =>
    match escape place r with
    | (some e, rest) => let (t, more) := unescapeFrom place n rest; (e :: t, more)
    | (none, _) => ([], false)
  | n + 1, c :: r => let (t, more) := unescapeFrom place n r; (c :: t, more)

def unescape (place : Place) (t : Text) : Text × Bool := unescapeFrom place (t.length + 1) t

/-- The output of `echo` with its escapes. -/
def echo (args : List Text) : Text :=
  let (newline, args) := match args with
    | ['-', 'n'] :: rest => (false, rest)
    | rest => (true, rest)
  let (t, more) := unescape .echoed (List.intercalate [' '] args)
  if more && newline then t ++ ['\n'] else t

/-- The output of `echo` as a program, where escapes are asked for by a flag. -/
def echoProgram (args : List Text) : Text :=
  let isFlag := fun (a : Text) => match a with
    | '-' :: c :: r => (c :: r).all ("neE".toList.contains ·)
    | _ => false
  let flags := (args.takeWhile isFlag).flatten
  let rest := List.intercalate [' '] (args.dropWhile isFlag)
  let (t, more) := if flags.contains 'e' then unescape .argument rest else (rest, true)
  if more && !flags.contains 'n' then t ++ ['\n'] else t

/-! ## Formats -/

/-- What a format has written, and what it could not read as a number. -/
structure Written where
  text : Text := []
  faults : List Text := []
  /-- Arguments that are left. -/
  rest : List Text := []
  /-- Whether an argument was asked for. -/
  asked : Bool := false
  stopped : Bool := false

/-- A field of a format. -/
structure Field where
  flags : Text
  width : Nat
  precision : Option Nat

def Field.pad (f : Field) (t : Text) : Text :=
  let gap := List.replicate (f.width - t.length) ' '
  if f.flags.contains '-' then t ++ gap else gap ++ t

def Field.padNumber (f : Field) (sign digits : Text) : Text :=
  let digits := List.replicate (f.precision.getD 0 - digits.length) '0' ++ digits
  if f.flags.contains '0' && !f.flags.contains '-' && f.precision.isNone then
    sign ++ List.replicate (f.width - sign.length - digits.length) '0' ++ digits
  else f.pad (sign ++ digits)

/-- A number in an argument, with whether it could be read. -/
def number (t : Text) : Int × Bool :=
  match t with
  | [] => (0, true)
  | '\'' :: c :: _ => (c.toNat, true)
  | '"' :: c :: _ => (c.toNat, true)
  | t => match integer? t with
    | some n => (n, true)
    | none => match Arithmetic.numberOf t with
      | some n => (n, true)
      | none => (((integer? (t.takeWhile Char.isDigit)).getD 0), false)

def Field.write (f : Field) (conversion : Char) (arg : Text) : Text × List Text × Bool :=
  let (n, readable) := number arg
  let faults := if readable then [] else [arg]
  let unsigned := (n % wordLimit).toNat
  let cutTo := fun (t : Text) => match f.precision with
    | some p => t.take p
    | none => t
  match conversion with
  | 's' => (f.pad (cutTo arg), [], true)
  | 'b' => let (t, more) := unescape .argument arg; (f.pad (cutTo t), [], more)
  | 'c' => (f.pad (arg.take 1), [], true)
  | 'o' => (f.padNumber [] (Nat.toDigits 8 unsigned), faults, true)
  | 'x' => (f.padNumber [] (Nat.toDigits 16 unsigned), faults, true)
  | 'X' => (f.padNumber [] ((Nat.toDigits 16 unsigned).map Char.toUpper), faults, true)
  | 'u' => (f.padNumber [] (Text.decimal unsigned), faults, true)
  | _ =>
    let sign : Text := if n < 0 then ['-'] else if f.flags.contains '+' then ['+']
      else if f.flags.contains ' ' then [' '] else []
    (f.padNumber sign (Text.decimal n.natAbs), faults, true)

/-- Writes a format once. Each step takes a character of it, so their number bounds the steps. -/
def writeOnce : Nat → Text → List Text → Written
  | 0, _, args => { rest := args }
  | _, [], args => { rest := args }
  | n + 1, '\\' :: r, args =>
    match escape .format r with
    | (some e, r) => let w := writeOnce n r args; { w with text := e :: w.text }
    | (none, _) => { rest := args, stopped := true }
  | n + 1, '%' :: '%' :: r, args => let w := writeOnce n r args; { w with text := '%' :: w.text }
  | n + 1, '%' :: r, args =>
    let flags := r.takeWhile ("-+ #0".toList.contains ·)
    let r := r.drop flags.length
    let width := r.takeWhile Char.isDigit
    let r := r.drop width.length
    let (precision, r) := match r with
      | '.' :: r =>
        (some (Nat.ofDigitChars 10 (r.takeWhile Char.isDigit) 0), r.dropWhile Char.isDigit)
      | r => (none, r)
    match r with
    | [] => { text := ['%'], rest := args }
    | c :: r =>
      let (t, faults, more) :=
        Field.write ⟨flags, Nat.ofDigitChars 10 width 0, precision⟩ c (args.headD [])
      if !more then { text := t, faults, rest := args.drop 1, asked := true, stopped := true }
      else
        let w := writeOnce n r (args.drop 1)
        { w with text := t ++ w.text, faults := faults ++ w.faults, asked := true }
  | n + 1, c :: r, args => let w := writeOnce n r args; { w with text := c :: w.text }

/-- Writes a format again for the arguments that are left, as long as it takes any. -/
def writeAll (format : Text) : Nat → List Text → Written
  | 0, _ => {}
  | n + 1, args =>
    let w := writeOnce (format.length + 1) format args
    if w.rest.isEmpty || !w.asked || w.stopped then w
    else
      let more := writeAll format n w.rest
      { more with text := w.text ++ more.text, faults := w.faults ++ more.faults }

def printf (format : Text) (args : List Text) : Written := writeAll format (args.length + 1) args

end LineRepl.Shell.Format
