import LineRepl.Text.Basic

/-!
Sums in scripts: whole numbers of 64 bits, variables, and the operators of the language C on them,
without assignment.
-/
namespace LineRepl.Shell

/-- A whole number as it is typed, with blanks around it and a sign. -/
def integer? (t : Text) : Option Int :=
  let t := t.dropWhile fun c => c = ' ' || c = '\t' || c = '\n'
  let t := (t.reverse.dropWhile fun c => c = ' ' || c = '\t' || c = '\n').reverse
  let digits := match t with
    | '-' :: r => r
    | '+' :: r => r
    | r => r
  if digits.isEmpty || !digits.all Char.isDigit then none
  else
    let n : Int := Nat.ofDigitChars 10 digits 0
    some (if t.head? == some '-' then -n else n)

namespace Arithmetic

inductive Token
  | number (n : Int)
  | name (t : Text)
  | sign (t : Text)
  deriving DecidableEq, Repr

/-- The signs, longer ones first. -/
def signs : List Text :=
  ["<<", ">>", "<=", ">=", "==", "!=", "&&", "||", "+", "-", "*", "/", "%", "<", ">", "&", "^",
    "|", "!", "~", "(", ")", "?", ":"].map String.toList

def hexValue? (t : Text) : Option Nat :=
  t.foldlM (fun n c =>
    let low := c.toLower
    if c.isDigit then some (n * 16 + (c.toNat - '0'.toNat))
    else if 'a' ≤ low && low ≤ 'f' then some (n * 16 + (low.toNat - 'a'.toNat + 10))
    else none) 0

/-- Reads the digits of a number: after `0x` in base sixteen, after `0` in base eight. -/
def numberOf (t : Text) : Option Nat :=
  match t with
  | '0' :: x :: r =>
    if x = 'x' || x = 'X' then hexValue? r
    else if (x :: r).all fun c => '0' ≤ c && c ≤ '7' then some (Nat.ofDigitChars 8 (x :: r) 0)
    else none
  | t => if t.all Char.isDigit then some (Nat.ofDigitChars 10 t 0) else none

/-- Cuts a sum into tokens. Each step takes a character, so their number bounds the steps. -/
def tokensFrom : Nat → Text → Option (List Token)
  | 0, _ => none
  | _, [] => some []
  | n + 1, c :: r =>
    let isName := fun (d : Char) => d.isAlphanum || d = '_'
    let run := (c :: r).takeWhile isName
    if c = ' ' || c = '\t' || c = '\n' then tokensFrom n r
    else if c.isDigit then do
      let value ← numberOf run
      let more ← tokensFrom n (r.drop (run.length - 1))
      pure (.number value :: more)
    else if isName c then (tokensFrom n (r.drop (run.length - 1))).map (.name run :: ·)
    else (signs.find? (·.isPrefixOf (c :: r))).bind fun s =>
      (tokensFrom n (r.drop (s.length - 1))).map (.sign s :: ·)

/-- Wraps to 64 bits with a sign. -/
def wrap (n : Int) : Int := Int.bmod n wordLimit

/-- Why a text has no value. -/
inductive Fault
  | malformed | zeroDivision
  deriving DecidableEq, Repr

def Fault.message : Fault → String
  | malformed => "expecting primary"
  | zeroDivision => "division by zero"

def truth (b : Bool) : Int := if b then 1 else 0

/-- How strongly an operator binds, and its value. Nothing can be divided by zero. -/
def binary? (sign : String) : Option (Nat × (Int → Int → Except Fault Int)) :=
  match sign with
  | "||" => some (1, fun a b => .ok (truth (a != 0 || b != 0)))
  | "&&" => some (2, fun a b => .ok (truth (a != 0 && b != 0)))
  | "|" => some (3, fun a b => .ok (Int64.ofInt a ||| Int64.ofInt b).toInt)
  | "^" => some (4, fun a b => .ok (Int64.ofInt a ^^^ Int64.ofInt b).toInt)
  | "&" => some (5, fun a b => .ok (Int64.ofInt a &&& Int64.ofInt b).toInt)
  | "==" => some (6, fun a b => .ok (truth (a == b)))
  | "!=" => some (6, fun a b => .ok (truth (a != b)))
  | "<" => some (7, fun a b => .ok (truth (a < b)))
  | "<=" => some (7, fun a b => .ok (truth (a ≤ b)))
  | ">" => some (7, fun a b => .ok (truth (a > b)))
  | ">=" => some (7, fun a b => .ok (truth (a ≥ b)))
  | "<<" => some (8, fun a b => .ok (Int64.ofInt a <<< Int64.ofInt b).toInt)
  | ">>" => some (8, fun a b => .ok (Int64.ofInt a >>> Int64.ofInt b).toInt)
  | "+" => some (9, fun a b => .ok (wrap (a + b)))
  | "-" => some (9, fun a b => .ok (wrap (a - b)))
  | "*" => some (10, fun a b => .ok (wrap (a * b)))
  | "/" => some (10, fun a b => if b = 0 then .error .zeroDivision else .ok (wrap (Int.tdiv a b)))
  | "%" => some (10, fun a b => if b = 0 then .error .zeroDivision else .ok (Int.tmod a b))
  | _ => none

mutual

/-- An operand with the signs before it. -/
def operand (look : Text → Text) : Nat → List Token → Except Fault (Int × List Token)
  | 0, _ => .error .malformed
  | n + 1, ts => match ts with
    | .number k :: r => .ok (wrap k, r)
    | .name x :: r =>
      let value := look x
      if value.isEmpty then .ok (0, r)
      else match integer? value with
        | some k => .ok (k, r)
        | none => .error .malformed
    | .sign ['('] :: r => do
      let (k, r) ← sum look n 0 r
      match r with
      | .sign [')'] :: r => pure (k, r)
      | _ => throw .malformed
    | .sign ['-'] :: r => do
      let (k, r) ← operand look n r
      pure (wrap (-k), r)
    | .sign ['+'] :: r => operand look n r
    | .sign ['!'] :: r => do
      let (k, r) ← operand look n r
      pure (truth (k == 0), r)
    | .sign ['~'] :: r => do
      let (k, r) ← operand look n r
      pure (-k - 1, r)
    | _ => .error .malformed

/-- Operands joined by operators that bind more strongly than `strength`. -/
def sum (look : Text → Text) : Nat → Nat → List Token → Except Fault (Int × List Token)
  | 0, _, _ => .error .malformed
  | n + 1, strength, ts => do
    let (a, r) ← operand look n ts
    sumRest look n strength a r

def sumRest (look : Text → Text) :
    Nat → Nat → Int → List Token → Except Fault (Int × List Token)
  | 0, _, _, _ => .error .malformed
  | n + 1, strength, a, ts =>
    match ts with
    | .sign s :: r =>
      match binary? (String.ofList s) with
      | some (own, apply) =>
        if own ≤ strength then .ok (a, ts)
        else do
          let (b, r) ← sum look n own r
          let c ← apply a b
          sumRest look n strength c r
      | none => .ok (a, ts)
    | ts => .ok (a, ts)

end

/-- The value of a sum. An empty sum is zero. -/
def value (look : Text → Text) (t : Text) : Except Fault Int :=
  match tokensFrom (t.length + 1) t with
  | none => .error .malformed
  | some [] => .ok 0
  | some ts => do
    let (n, rest) ← sum look (4 * ts.length + 8) 0 ts
    if rest.isEmpty then pure n else throw .malformed

end Arithmetic
end LineRepl.Shell
