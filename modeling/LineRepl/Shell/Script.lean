import LineRepl.Shell.Syntax
import LineRepl.Text.Lines

/-!
Reading shell scripts. A script is read line by line, so that what stands on the lines before a
mistake is still carried out. Each reader takes the text that is left and gives what it found with
the rest; the numbers bound the depth of nesting and the number of steps, and the length of the text
is enough for both.
-/
namespace LineRepl.Shell

/-! ## Characters and blanks -/

/-- Characters that end a word outside quotes. -/
def endsWord (c : Char) : Bool := " \t\n;&|<>()".toList.contains c

def isNameStart (c : Char) : Bool := c.isAlpha || c = '_'

def isNameChar (c : Char) : Bool := c.isAlphanum || c = '_'

/-- Parameters with a name of one character that is no letter. -/
def isSpecialName (c : Char) : Bool := c.isDigit || "@*#?$!-".toList.contains c

def skipSpaces : Text → Text
  | '\\' :: '\n' :: r => skipSpaces r
  | ' ' :: r => skipSpaces r
  | '\t' :: r => skipSpaces r
  | '#' :: r => r.dropWhile (· ≠ '\n')
  | s => s

/-- Drops blanks, comments and line ends. The number bounds how many lines are dropped. -/
def skipLines : Nat → Text → Text
  | 0, s => s
  | n + 1, s => match skipSpaces s with
    | '\n' :: r => skipLines n r
    | s => s

def skipBreaks (s : Text) : Text := skipLines (s.length + 1) s

/-- The characters up to the end of a word, whatever they mean. -/
def rawWord (s : Text) : Text := s.takeWhile (!endsWord ·)

/-- Words that close what another word opened. -/
def closers : List Text :=
  ["then", "do", "done", "fi", "else", "elif", "esac", "\x7d"].map String.toList

def endsList (s : Text) : Bool :=
  s.isEmpty || s.head? == some ')' || (";;".toList).isPrefixOf s || closers.contains (rawWord s)

/-- Takes a word that must come next. -/
def expectWord (word : Text) (s : Text) : Option Text :=
  let s := skipBreaks s
  if rawWord s = word then some (s.drop word.length) else none

def expectChar (c : Char) (s : Text) : Option Text :=
  match skipBreaks s with
  | d :: r => if c = d then some r else none
  | [] => none

/-! ## Pieces of words -/

/-- Where a run of parts stands. -/
inductive Place
  | word
  | quotes
  | braces (quoted : Bool)
  /-- A text that is expanded as a whole. -/
  | body
  deriving DecidableEq, Repr

namespace Place

/-- Whether quotes have a meaning there. -/
def isOpen : Place → Bool
  | word | braces false => true
  | _ => false

def stopsAt (p : Place) (c : Char) : Bool :=
  match p with
  | word => endsWord c
  | quotes => c = '"'
  | braces _ => c = '}'
  | body => false

def mayEnd : Place → Bool
  | word | body => true
  | _ => false

/-- Whether a backslash protects the character. -/
def protects (p : Place) (c : Char) : Bool :=
  p.isOpen || "$`\\".toList.contains c || (c = '"' && p != body) || (c = '}' && p == braces true)

end Place

/-- The text up to the closing parentheses of a sum. The number is the depth of parentheses. -/
def sumText : Nat → Text → Option (Text × Text)
  | _, [] => none
  | 0, ')' :: r => match r with
    | ')' :: r => some ([], r)
    | _ => none
  | d + 1, ')' :: r => (sumText d r).map fun (t, rest) => (')' :: t, rest)
  | d, '(' :: r => (sumText (d + 1) r).map fun (t, rest) => ('(' :: t, rest)
  | d, c :: r => (sumText d r).map fun (t, rest) => (c :: t, rest)

def backquoted : Text → Option (Text × Text)
  | [] => none
  | '`' :: r => some ([], r)
  | '\\' :: c :: r =>
    (backquoted r).map fun (t, rest) =>
      (if "$`\\".toList.contains c then (c :: t, rest) else ('\\' :: c :: t, rest))
  | c :: r => (backquoted r).map fun (t, rest) => (c :: t, rest)

/-- The rules by their signs, longer signs first. -/
def rules : List (Text × Rule) :=
  [(":-", .default true), (":=", .assign true), (":+", .alternative true), (":?", .require true),
    ("##", .dropFront true), ("%%", .dropBack true), ("-", .default false), ("=", .assign false),
    ("+", .alternative false), ("?", .require false), ("#", .dropFront false),
    ("%", .dropBack false)].map fun (sign, rule) => (sign.toList, rule)

def parameterName : Text → Option (Text × Text)
  | [] => none
  | c :: r =>
    if isNameStart c then some ((c :: r).takeWhile isNameChar, (c :: r).dropWhile isNameChar)
    else if isSpecialName c then some ([c], r)
    else none

/-- Splits a word that assigns to a name. -/
def assignment? : Word → Option (Text × Word)
  | .plain c :: r =>
    if !isNameChar c then none
    else match r with
      | .plain '=' :: value => some ([c], value)
      | r => (assignment? r).map fun (name, value) => (c :: name, value)
  | _ => none

/-- The sign of a redirection: its stream and kind, and for a text that follows whether tabs are
dropped from its lines. -/
def redirectSign (s : Text) : Option ((Nat × RedirectKind × Bool) × Text) :=
  let number := s.takeWhile Char.isDigit
  let stream := fun (standard : Nat) =>
    if number.isEmpty then standard else Nat.ofDigitChars 10 number 0
  match s.dropWhile Char.isDigit with
  | '>' :: '>' :: r => some ((stream 1, .append, false), r)
  | '>' :: '&' :: r => some ((stream 1, .duplicate, false), r)
  | '>' :: '|' :: r => some ((stream 1, .write, false), r)
  | '>' :: r => some ((stream 1, .write, false), r)
  | '<' :: '<' :: '-' :: r => some ((stream 0, .hereText, true), r)
  | '<' :: '<' :: r => some ((stream 0, .hereText, false), r)
  | '<' :: '&' :: r => some ((stream 0, .duplicate, false), r)
  | '<' :: r => some ((stream 0, .read, false), r)
  | _ => none

/-- The characters of a word that is not expanded, and whether any of it is quoted. -/
def literalWord : Word → Text × Bool
  | [] => ([], false)
  | .plain c :: r => let (t, q) := literalWord r; (c :: t, q)
  | .fixed c :: r => let (t, _) := literalWord r; (c :: t, true)
  | .quoted ps :: r =>
    let inner := ps.filterMap fun p => match p with
      | .plain c => some c
      | .fixed c => some c
      | _ => none
    let (t, _) := literalWord r
    (inner ++ t, true)
  | _ :: r => literalWord r

/-- Takes the lines up to one that is the delimiter out of the text after the current line. -/
def hereLines (dropTabs : Bool) (delimiter : Text) (s : Text) : Text × Text :=
  let line := s.takeWhile (· ≠ '\n')
  let below := (Text.pieces (s.drop (line.length + 1))).map fun l =>
    if dropTabs then l.dropWhile (· = '\t') else l
  let isBody := fun l => Text.dropFeed l != delimiter
  ((below.takeWhile isBody).flatten,
    line ++ '\n' :: ((below.dropWhile isBody).drop 1).flatten)

/-! ## Readers -/

mutual

/-- Parts up to the end of the place they stand in. -/
def parts (feeds : Nat) : Nat → Place → Text → Option (Word × Text)
  | 0, _, _ => none
  | _ + 1, place, [] => if place.mayEnd then some ([], []) else none
  | n + 1, place, c :: r =>
    let more := fun (front : Word) (rest : Text) =>
      (parts feeds n place rest).map fun (ps, rest) => (front ++ ps, rest)
    if place.stopsAt c then some ([], c :: r)
    else if c = '\\' then
      match r with
      | [] => some ([.fixed '\\'], [])
      | d :: r' =>
        if d = '\n' then more [] r'
        else if place.protects d then more [.fixed d] r'
        else more [.fixed '\\'] r
    else if c = '\'' && place.isOpen then
      (Text.splitFirst '\'' r).bind fun (t, rest) => more [.quoted (t.map .fixed)] rest
    else if c = '"' && (place.isOpen || place = .braces true) then
      (parts feeds n .quotes r).bind fun (ps, rest) => more [.quoted ps] (rest.drop 1)
    else if c = '$' then
      (dollar feeds n (!place.isOpen) r).bind fun (p, rest) => more [p] rest
    else if c = '`' then
      (backquoted r).bind fun (t, rest) =>
        (list feeds n t).bind fun (script, _) => more [.output script] rest
    else more [if place.isOpen then .plain c else .fixed c] r

/-- What a dollar sign begins. -/
def dollar (feeds : Nat) : Nat → Bool → Text → Option (Part × Text)
  | 0, _, _ => none
  | n + 1, _, '(' :: '(' :: r =>
    (sumText 0 r).bind fun (t, rest) =>
      (parts feeds n .body t).map fun (ps, _) => (.arithmetic ps, rest)
  | n + 1, _, '(' :: r =>
    (list feeds n r).bind fun (script, s) =>
      (expectChar ')' s).map fun rest => (.output script, rest)
  | n + 1, quoted, '{' :: r => braced feeds n quoted r
  | _ + 1, _, s => match parameterName s with
    | some (name, rest) => some (.parameter name none, rest)
    | none => some (.fixed '$', s)

def braced (feeds : Nat) : Nat → Bool → Text → Option (Part × Text)
  | 0, _, _ => none
  | n + 1, quoted, s =>
    let lengthOf? := match s with
      | '#' :: r => (parameterName r).bind fun (name, rest) => match rest with
        | '}' :: rest => some (Part.parameter name (some (.length, [])), rest)
        | _ => none
      | _ => none
    lengthOf?.orElse fun _ =>
      (parameterName s).bind fun (name, rest) =>
        match rest with
        | '}' :: rest => some (.parameter name none, rest)
        | rest =>
          (rules.find? fun (sign, _) => sign.isPrefixOf rest).bind fun (sign, rule) =>
            (parts feeds n (.braces quoted) (rest.drop sign.length)).map fun (ps, rest) =>
              (.parameter name (some (rule, ps)), rest.drop 1)

/-- Commands up to the end of a list. -/
def list (feeds : Nat) : Nat → Text → Option (Script × Text)
  | 0, _ => none
  | n + 1, s =>
    let s := skipBreaks s
    if endsList s then some (.nothing, s)
    else (andOr feeds n s).bind fun (a, s) =>
      let next := fun r => (list feeds n r).map fun (b, rest) => (Script.followed a b, rest)
      match skipSpaces s with
      | [] => some (a, [])
      | ';' :: ';' :: r => some (a, ';' :: ';' :: r)
      | ')' :: r => some (a, ')' :: r)
      | c :: r => if c = ';' || c = '&' || c = '\n' then next r else none

/-- Commands joined by success or failure. -/
def andOr (feeds : Nat) : Nat → Text → Option (Script × Text)
  | 0, _ => none
  | n + 1, s => (pipeline feeds n s).bind fun (a, s) => andOrRest feeds n a s

def andOrRest (feeds : Nat) : Nat → Script → Text → Option (Script × Text)
  | 0, _, _ => none
  | n + 1, a, s => match skipSpaces s with
    | '&' :: '&' :: r =>
      (pipeline feeds n (skipBreaks r)).bind fun (b, s) => andOrRest feeds n (.both a b) s
    | '|' :: '|' :: r =>
      (pipeline feeds n (skipBreaks r)).bind fun (b, s) => andOrRest feeds n (.either a b) s
    | s => some (a, s)

def pipeline (feeds : Nat) : Nat → Text → Option (Script × Text)
  | 0, _ => none
  | n + 1, s =>
    let s := skipSpaces s
    if rawWord s = ['!'] then
      (pipeline feeds n (s.drop 1)).map fun (a, rest) => (.negated a, rest)
    else (command feeds n s).bind fun (a, s) => pipelineRest feeds n a s

def pipelineRest (feeds : Nat) : Nat → Script → Text → Option (Script × Text)
  | 0, _, _ => none
  | n + 1, a, s => match skipSpaces s with
    | '|' :: '|' :: r => some (a, '|' :: '|' :: r)
    | '|' :: r =>
      (command feeds n (skipBreaks r)).bind fun (b, s) => pipelineRest feeds n (.piped a b) s
    | s => some (a, s)

def command (feeds : Nat) : Nat → Text → Option (Script × Text)
  | 0, _ => none
  | n + 1, s =>
    let word := String.ofList (rawWord s)
    let r := s.drop word.length
    let close := fun (apart : Bool) (body : Script) (s : Text) =>
      (redirects feeds n s).map fun (rs, rest) =>
        (if apart || !rs.isEmpty then Script.grouped apart body rs else body, rest)
    if s.head? == some '(' then
      (list feeds n (s.drop 1)).bind fun (a, s) => (expectChar ')' s).bind (close true a)
    else if word = "\x7b" then
      (list feeds n r).bind fun (a, s) => (expectWord ['}'] s).bind (close false a)
    else if word = "if" then (choice feeds n r).bind fun (a, s) => close false a s
    else if word = "while" || word = "until" then do
      let (condition, s) ← list feeds n r
      let s ← expectWord "do" s
      let (body, s) ← list feeds n s
      let s ← expectWord "done" s
      close false (.repeated (word = "until") condition body) s
    else if word = "for" then do
      let s := skipSpaces r
      let (name, s) ← parameterName s
      let (items, s) ← match expectWord "in" s with
        | some s => (wordList feeds n s).map fun (ws, s) => (some ws, s)
        | none => some (none, s)
      let s := match skipSpaces s with
        | ';' :: r => r
        | s => s
      let s ← expectWord "do" s
      let (body, s) ← list feeds n s
      let s ← expectWord "done" s
      close false (.forEach name items body) s
    else if word = "case" then do
      let (subject, s) ← parts feeds n .word (skipSpaces r)
      let s ← expectWord "in" s
      let (cs, s) ← caseClauses feeds n s
      close false (.matching subject cs) s
    else
      let isName := !word.isEmpty && word.toList.all isNameChar
      match isName, skipSpaces r with
      | true, '(' :: r => do
        let s ← expectChar ')' r
        let (body, rest) ← command feeds n (skipBreaks s)
        pure (.function word.toList body, rest)
      | _, _ => simple feeds n (feeds + 1 - s.count '\n') [] [] [] s

/-- What follows `if` or `elif`, through the closing `fi`. -/
def choice (feeds : Nat) : Nat → Text → Option (Script × Text)
  | 0, _ => none
  | n + 1, s => do
    let (condition, s) ← list feeds n s
    let s ← expectWord "then" s
    let (yes, s) ← list feeds n s
    match expectWord "elif" s, expectWord "else" s with
    | some s, _ => (choice feeds n s).map fun (no, rest) => (.choice condition yes no, rest)
    | none, some s => do
      let (no, s) ← list feeds n s
      let rest ← expectWord "fi" s
      pure (.choice condition yes no, rest)
    | none, none => do
      let rest ← expectWord "fi" s
      pure (.choice condition yes .nothing, rest)

/-- The clauses of a case, through the closing `esac`. -/
def caseClauses (feeds : Nat) : Nat → Text → Option (List (List Word × Script) × Text)
  | 0, _ => none
  | n + 1, s =>
    match expectWord "esac" s with
    | some rest => some ([], rest)
    | none => do
      let s := skipBreaks s
      let (patterns, s) ← casePatterns feeds n (if s.head? == some '(' then s.drop 1 else s)
      let (body, s) ← list feeds n s
      let s := skipBreaks s
      let (more, rest) ← caseClauses feeds n (if (";;".toList).isPrefixOf s then s.drop 2 else s)
      pure ((patterns, body) :: more, rest)

/-- Patterns with bars between them, through the closing parenthesis. -/
def casePatterns (feeds : Nat) : Nat → Text → Option (List Word × Text)
  | 0, _ => none
  | n + 1, s => do
    let (pattern, s) ← parts feeds n .word (skipSpaces s)
    match skipSpaces s with
    | '|' :: r => (casePatterns feeds n r).map fun (ps, rest) => (pattern :: ps, rest)
    | ')' :: r => some ([pattern], r)
    | _ => none

def wordList (feeds : Nat) : Nat → Text → Option (List Word × Text)
  | 0, _ => none
  | n + 1, s => match skipSpaces s with
    | [] => some ([], [])
    | c :: r =>
      if endsWord c then some ([], c :: r)
      else do
        let (word, s) ← parts feeds n .word (c :: r)
        let (words, rest) ← wordList feeds n s
        pure (word :: words, rest)

/-- A redirection, whose sign has been taken. -/
def redirectTarget (feeds : Nat) : Nat → Nat × RedirectKind × Bool → Text → Option (Redirect × Text)
  | 0, _, _ => none
  | n + 1, (stream, kind, dropTabs), s => do
    let (target, s) ← parts feeds n .word (skipSpaces s)
    if kind = .hereText then
      let (delimiter, quoted) := literalWord target
      let (body, rest) := hereLines dropTabs delimiter s
      if quoted then some (.mk stream kind (body.map .fixed), rest)
      else (parts feeds n .body body).map fun (ps, _) => (.mk stream kind ps, rest)
    else if target.isEmpty then none
    else some (.mk stream kind target, s)

def redirects (feeds : Nat) : Nat → Text → Option (List Redirect × Text)
  | 0, _ => none
  | n + 1, s =>
    match redirectSign (skipSpaces s) with
    | none => some ([], s)
    | some (sign, r) => do
      let (d, s) ← redirectTarget feeds n sign r
      let (ds, rest) ← redirects feeds n s
      pure (d :: ds, rest)

/-- Assignments, words and redirections in any order, after those read before. -/
def simple (feeds : Nat) : Nat → Nat → List (Text × Word) → List Word → List Redirect → Text →
    Option (Script × Text)
  | 0, _, _, _, _, _ => none
  | n + 1, line, assignments, words, ds, s =>
    let s := skipSpaces s
    match redirectSign s with
    | some (sign, r) => do
      let (d, s) ← redirectTarget feeds n sign r
      simple feeds n line assignments words (ds ++ [d]) s
    | none =>
      if s.isEmpty || (s.head?.any endsWord) then
        if assignments.isEmpty && words.isEmpty && ds.isEmpty then none
        else some (.simple line assignments words ds, s)
      else do
        let (word, s) ← parts feeds n .word s
        match (if words.isEmpty then assignment? word else none) with
        | some a => simple feeds n line (assignments ++ [a]) words ds s
        | none => simple feeds n line assignments (words ++ [word]) ds s

end

/-- Reads the commands on a line, to the line end that follows them. `feeds` is the number of line
feeds in the whole script. -/
def lineFrom (feeds : Nat) : Nat → Text → Option (Script × Text)
  | 0, _ => none
  | n + 1, s => do
    let (a, s) ← andOr feeds (4 * s.length + 20) s
    match skipSpaces s with
    | [] => pure (a, [])
    | '\n' :: r => pure (a, r)
    | c :: r =>
      if c != ';' && c != '&' then none
      else match skipSpaces r with
        | [] => pure (a, [])
        | '\n' :: r => pure (a, r)
        | r => (lineFrom feeds n r).map fun (b, rest) => (.followed a b, rest)

/-- Reads the next line of a script with all that belongs to its commands. -/
def nextLine (feeds : Nat) (s : Text) : Option (Script × Text) := lineFrom feeds (s.length + 1) s

end LineRepl.Shell
