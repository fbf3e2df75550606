import LineRepl.Text.Basic

/-!
Paths: text with `/` between names. A path that begins with `/` starts at the root, any other at
the current directory. Empty names and `.` mean nothing inside a path.
-/
namespace LineRepl

structure Path where
  text : Text
  deriving DecidableEq, Repr, Inhabited

namespace Path

instance : Coe String Path := ⟨fun s => ⟨s.toList⟩⟩

def isAbsolute (p : Path) : Bool := p.text.head? == some '/'

/-- `p/q`, or `q` alone when that starts at the root. -/
def join (p q : Path) : Path :=
  if q.isAbsolute || p.text.isEmpty then q
  else if p.text.getLast? == some '/' then ⟨p.text ++ q.text⟩
  else ⟨p.text ++ '/' :: q.text⟩

/-- The names of a path in order, without those that mean nothing. -/
def names (p : Path) : List Text :=
  (Text.fields '/' p.text).filter fun f => f != [] && f != ['.']

/-- Writes names with `/` between them. -/
def ofNames : List Text → Text
  | [] => []
  | [n] => n
  | n :: ns => n ++ '/' :: ofNames ns

/-- Whether a path written without names still means a place: the root or the current directory. -/
def isBare (p : Path) : Bool :=
  p.isAbsolute || (Text.fields '/' p.text).head? == some ['.']

/-- The path without its last name. The root and the empty path have no parent. -/
def parent? (p : Path) : Option Path :=
  match p.names.dropLast, p.names with
  | _, [] => if p.isAbsolute || p.text.isEmpty then none else some ⟨[]⟩
  | front, _ =>
    if p.isAbsolute then some ⟨'/' :: ofNames front⟩
    else if p.isBare then some ⟨ofNames (['.'] :: front)⟩
    else some ⟨ofNames front⟩

/-- The last name, unless the path ends in `..` or has no name. -/
def fileName? (p : Path) : Option Text :=
  p.names.getLast?.filter (· != ['.', '.'])

/-- The file name up to its last dot. A dot at the front belongs to the name. -/
def fileStem? (p : Path) : Option Text :=
  p.fileName?.map fun name =>
    match Text.beforeLast '.' name with
    | none | some [] => name
    | some stem => stem

/-- Drops the fields at both ends that mean nothing, and keeps what stands between them as it is. -/
def trimFields (t : Text) : Text :=
  let void := fun f : Text => f == [] || f == ['.']
  ofNames ((((Text.fields '/' t).dropWhile void).reverse.dropWhile void).reverse)

/-- What follows the first name, when that is `name`. -/
def after? (name : Text) (p : Path) : Option Path :=
  match Text.fields '/' p.text with
  | first :: rest => if first = name then some ⟨trimFields (ofNames rest)⟩ else none
  | [] => none

end Path
end LineRepl
