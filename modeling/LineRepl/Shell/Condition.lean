import LineRepl.Files.Tree
import LineRepl.Shell.Arithmetic
import LineRepl.Text.Utf8

/-!
Conditions on texts, numbers and files, as the command `test` decides them.
-/
namespace LineRepl.Shell

/-- The bytes that a text of a shell stands for. -/
def bytesOf (t : Text) : Bytes := t.map fun c => c.toNat.toUInt8

/-- Bytes as a text of a shell. -/
def ofBytes (b : Bytes) : Text := b.map fun x => Char.ofNat x.toNat

/-- Any text as a text of a shell. -/
def ofText (t : Text) : Text := ofBytes t.utf8

def pathOf (t : Text) : Path := ⟨Bytes.lossyText (bytesOf t)⟩

namespace Condition

/-- A condition on one text. -/
def unary? (tree : FileTree) (op : String) (t : Text) : Option Bool :=
  let path := pathOf t
  match op with
  | "-n" => some (!t.isEmpty)
  | "-z" => some t.isEmpty
  | "-e" => some (tree.pathExists path)
  | "-r" => some (tree.pathExists path)
  | "-w" => some (tree.pathExists path)
  | "-f" => some (tree.isFile path)
  | "-d" => some (tree.isDirectory path)
  | "-x" => some <| match tree.stat path with
    | .ok (.file _ runnable) => runnable
    | .ok .directory => true
    | .error _ => false
  | "-s" => some <| match tree.stat path with
    | .ok (.file data _) => !data.isEmpty
    | .ok .directory => true
    | .error _ => false
  | "-t" => some false
  | _ => none

/-- A condition on two texts; an error names a text that is no number. -/
def binary? (op : String) (a b : Text) : Option (Except Text Bool) :=
  let compare := fun (test : Int → Int → Bool) => some <| match integer? a, integer? b with
    | some m, some n => .ok (test m n)
    | none, _ => .error a
    | _, none => .error b
  match op with
  | "=" => some (.ok (a == b))
  | "==" => some (.ok (a == b))
  | "!=" => some (.ok (a != b))
  | "-eq" => compare (· == ·)
  | "-ne" => compare (· != ·)
  | "-lt" => compare (· < ·)
  | "-le" => compare (· ≤ ·)
  | "-gt" => compare (· > ·)
  | "-ge" => compare (· ≥ ·)
  | _ => none

mutual

/-- Conditions joined by `-o`. -/
def either (tree : FileTree) : Nat → List Text → Option (Except Text Bool × List Text)
  | 0, _ => none
  | n + 1, ts => do
    let (a, rest) ← both tree n ts
    match rest with
    | op :: more =>
      if String.ofList op = "-o" then do
        let (b, rest) ← either tree n more
        pure (do pure ((← a) || (← b)), rest)
      else pure (a, rest)
    | [] => pure (a, [])

/-- Conditions joined by `-a`. -/
def both (tree : FileTree) : Nat → List Text → Option (Except Text Bool × List Text)
  | 0, _ => none
  | n + 1, ts => do
    let (a, rest) ← primary tree n ts
    match rest with
    | op :: more =>
      if String.ofList op = "-a" then do
        let (b, rest) ← both tree n more
        pure (do pure ((← a) && (← b)), rest)
      else pure (a, rest)
    | [] => pure (a, [])

/-- One condition. With three texts the one in the middle decides what they are. -/
def primary (tree : FileTree) : Nat → List Text → Option (Except Text Bool × List Text)
  | 0, _ => none
  | n + 1, ts => match ts with
    | [] => none
    | [t] => some (.ok (!t.isEmpty), [])
    | a :: rest =>
      let op := String.ofList a
      let binary := match rest with
        | o :: b :: more => (binary? (String.ofList o) a b).map fun r => (r, more)
        | _ => none
      match binary with
      | some r => some r
      | none =>
        if op = "!" then (primary tree n rest).map fun (r, more) => (r.map (!·), more)
        else if op = "(" then do
          let (r, more) ← either tree n rest
          match more with
          | [')'] :: more => pure (r, more)
          | _ => none
        else match rest with
          | b :: more => match unary? tree op b with
            | some r => some (.ok r, more)
            | none => some (.ok (!a.isEmpty), rest)
          | [] => none

end

/-- What the texts of a condition come to: its truth, or why it is no condition. -/
def value (tree : FileTree) (ts : List Text) : Except Text Bool :=
  if ts.isEmpty then .ok false
  else match either tree (3 * ts.length + 6) ts with
    | some (.ok b, []) => .ok b
    | some (.error t, _) => .error ("Illegal number: ".toList ++ t)
    | some (.ok _, t :: _) => .error (t ++ ": unexpected operator".toList)
    | none => .error "argument expected".toList

end Condition
end LineRepl.Shell
