import LineRepl.Text.Basic

/-!
The pieces that a word is expanded to, and two things done with them: cutting them into fields, and
matching a text against them as a pattern.
-/
namespace LineRepl.Shell

inductive Glyph
  /-- Stands in the script outside quotes: special in a pattern, part of its field. -/
  | bare (c : Char)
  /-- Protected: stands for itself everywhere. -/
  | hard (c : Char)
  /-- Comes from an expansion outside quotes: special in a pattern, and blanks end a field. -/
  | soft (c : Char)
  /-- There is a field here, even if it is empty. -/
  | mark
  /-- One field ends here and another begins. -/
  | cut
  deriving DecidableEq, Repr

namespace Glyph

def char? : Glyph → Option Char
  | bare c | hard c | soft c => some c
  | _ => none

/-- The text of glyphs that are not cut into fields. -/
def text (gs : List Glyph) : Text :=
  gs.filterMap fun g => if g = cut then some ' ' else g.char?

/-- Cuts glyphs into fields. The field in progress, if there is one, is given in reverse. -/
def fieldsFrom (separators : Text) : Option Text → List Glyph → List Text
  | current, [] => current.toList.map List.reverse
  | current, g :: gs =>
    match g with
    | mark => fieldsFrom separators (some (current.getD [])) gs
    | cut => current.toList.map List.reverse ++ fieldsFrom separators none gs
    | bare c | hard c => fieldsFrom separators (some (c :: current.getD [])) gs
    | soft c =>
      if !separators.contains c then fieldsFrom separators (some (c :: current.getD [])) gs
      else
        let ended := if " \t\n".toList.contains c then current.toList else [current.getD []]
        ended.map List.reverse ++ fieldsFrom separators none gs

def fields (separators : Text) (gs : List Glyph) : List Text := fieldsFrom separators none gs

end Glyph

/-! ## Patterns -/

/-- A set of characters between brackets, as ranges. -/
structure CharSet where
  excluded : Bool
  ranges : List (Char × Char)

def CharSet.contains (s : CharSet) (c : Char) : Bool :=
  s.ranges.any (fun (a, b) => a ≤ c && c ≤ b) != s.excluded

inductive Pattern
  | one (c : Char)
  | any
  | anyRun
  | set (s : CharSet)

namespace Pattern

/-- The ranges up to a closing bracket, which may itself come first. -/
def rangesFrom : Bool → List Glyph → Option (List (Char × Char) × List Glyph)
  | _, [] => none
  | first, .bare ']' :: gs =>
    if first then (rangesFrom false gs).map fun (rs, rest) => ((']', ']') :: rs, rest)
    else some ([], gs)
  | _, a :: .bare '-' :: b :: gs =>
    match a.char?, b.char? with
    | some a, some c =>
      if b = .bare ']' then some ([(a, a), ('-', '-')], gs)
      else (rangesFrom false gs).map fun (rs, rest) => ((a, c) :: rs, rest)
    | _, _ => none
  | _, a :: gs =>
    a.char?.bind fun a => (rangesFrom false gs).map fun (rs, rest) => ((a, a) :: rs, rest)

/-- Reads a pattern. Each step takes a glyph, so their number bounds the steps. -/
def ofGlyphsFrom : Nat → List Glyph → List Pattern
  | 0, _ => []
  | _, [] => []
  | n + 1, g :: gs =>
    let special := match g with
      | .bare c | .soft c => some c
      | _ => none
    if special = some '*' then anyRun :: ofGlyphsFrom n gs
    else if special = some '?' then any :: ofGlyphsFrom n gs
    else if special = some '[' then
      let (excluded, inner) := match gs with
        | .bare '!' :: inner => (true, inner)
        | inner => (false, inner)
      match rangesFrom true inner with
      | some (ranges, rest) => set ⟨excluded, ranges⟩ :: ofGlyphsFrom n rest
      | none => one '[' :: ofGlyphsFrom n gs
    else match g.char? with
      | some c => one c :: ofGlyphsFrom n gs
      | none => ofGlyphsFrom n gs

def ofGlyphs (gs : List Glyph) : List Pattern := ofGlyphsFrom (gs.length + 1) gs

/-- All that may be left of a text when some of its front is dropped. -/
def ends : Text → List Text
  | [] => [[]]
  | c :: r => (c :: r) :: ends r

/-- Whether the whole text has the form of the pattern. -/
def accepts : List Pattern → Text → Bool
  | [], t => t.isEmpty
  | .anyRun :: ps, t => (ends t).any (accepts ps)
  | .any :: ps, _ :: t => accepts ps t
  | .one c :: ps, d :: t => c == d && accepts ps t
  | .set s :: ps, d :: t => s.contains d && accepts ps t
  | _ :: _, [] => false

/-- Drops the shortest or the longest front that has the form of the pattern. -/
def dropFront (longest : Bool) (ps : List Pattern) (t : Text) : Text :=
  let sizes := List.range (t.length + 1)
  let sizes := if longest then sizes.reverse else sizes
  match sizes.find? fun n => accepts ps (t.take n) with
  | some n => t.drop n
  | none => t

/-- Drops the shortest or the longest back that has the form of the pattern. -/
def dropBack (longest : Bool) (ps : List Pattern) (t : Text) : Text :=
  let sizes := List.range (t.length + 1)
  let sizes := if longest then sizes else sizes.reverse
  match sizes.find? fun n => accepts ps (t.drop n) with
  | some n => t.take n
  | none => t

end Pattern
end LineRepl.Shell
