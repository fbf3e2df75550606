import LineRepl.Text.Basic

/-!
Blank characters and what is cut along them: trimming, first tokens, words. A character is blank
when it has the Unicode property White_Space.
-/
namespace LineRepl

/-- The characters with the property White_Space. -/
def isBlank (c : Char) : Bool :=
  let n := c.toNat
  (0x09 ≤ n && n ≤ 0x0D) || n == 0x20 || n == 0x85 || n == 0xA0 || n == 0x1680 ||
    (0x2000 ≤ n && n ≤ 0x200A) || n == 0x2028 || n == 0x2029 || n == 0x202F || n == 0x205F ||
    n == 0x3000

namespace Text

def trimStart (t : Text) : Text := t.dropWhile isBlank

def trimEnd (t : Text) : Text := (t.reverse.dropWhile isBlank).reverse

def trim (t : Text) : Text := trimEnd (trimStart t)

/-- Whether nothing but blanks is there. -/
def allBlank (t : Text) : Bool := t.all isBlank

/-- The trimmed text, unless nothing is left of it. -/
def nonBlank? (t : Text) : Option Text :=
  match trim t with
  | [] => none
  | t => some t

/-- The first token and what follows it. The blanks before and right after the token are dropped;
the rest is kept as it is. -/
def splitToken (t : Text) : Option (Text × Text) :=
  match trimStart t with
  | [] => none
  | t => some (t.takeWhile (!isBlank ·), trimStart (t.dropWhile (!isBlank ·)))

/-- The tokens of a text: maximal runs of characters that are not blank. -/
def words : Text → List Text
  | [] => []
  | c :: r =>
    if isBlank c then words r
    else match r with
      | [] => [[c]]
      | d :: _ =>
        if isBlank d then [c] :: words r
        else match words r with
          | [] => [[c]]
          | w :: ws => (c :: w) :: ws

end Text
end LineRepl
