import LineRepl.Text.Basic
import LineRepl.Text.CaseTable

/-!
Text in lower case, with the full mapping of Unicode. One rule looks beyond the character: a capital
sigma at the end of a word becomes a final sigma.
-/
namespace LineRepl.Text

/-- The lower-case form of a character on its own. -/
def lowerChar (c : Char) : Text :=
  if c = 'İ' then ['i', '\u0307']
  else
    let n := c.toNat
    match lowerRuns.find? fun r => r.first ≤ n && n ≤ r.last && (n - r.first) % r.step == 0 with
    | some r => [Char.ofNat (n + r.distance).toNat]
    | none => [c]

/-- Whether the first character that counts for case has case. -/
def meetsCased (t : Text) : Bool :=
  match t.dropWhile fun c => inRanges c.toNat caseIgnorableRanges with
  | c :: _ => inRanges c.toNat casedRanges
  | [] => false

/-- Changes a text to lower case. What stands before it is given in reverse. -/
def lowerAfter (before : Text) : Text → Text
  | [] => []
  | c :: r =>
    let form := if c = 'Σ' then [if meetsCased before && !meetsCased r then 'ς' else 'σ']
      else lowerChar c
    form ++ lowerAfter (c :: before) r

def toLower (t : Text) : Text := lowerAfter [] t

end LineRepl.Text
