import LineRepl.Shell.Builtin
import LineRepl.Shell.Script

/-!
Carrying out scripts and starting programs. A program is a tool, or a file whose first line names
the program that reads it. The numbers bound how far a script goes; one that has not ended by then
counts as one that never ends.
-/
namespace LineRepl.Shell

/-! ## Parts of a process -/

/-- Carries out an action whose changes of variables stay inside it. -/
def apart (act : Act Unit) : Act Unit := fun p =>
  let inside := fun (q : Process) =>
    { p with
      tree := { q.tree with current := p.tree.current }, streams := q.streams, input := q.input
      status := q.status }
  match act p with
  | .ok _ q => .ok () (inside q)
  | .error (.exit n) q => .ok () { inside q with status := n }
  | .error (.back n) q => .ok () { inside q with status := n }
  | .error (.loop ..) q => .ok () (inside q)
  | .error e q => .error e (inside q)

/-- Carries out an action apart and collects its output. -/
def collect (act : Act Unit) : Act Text := fun p =>
  let index := p.streams.size
  let collecting : Act Unit := do
    modify fun q => { q with streams := q.streams.push #[], out := .stream index }
    act
  match apart collecting p with
  | .ok _ q => .ok (q.streams[index]?.getD #[]).toList { q with streams := q.streams.pop }
  | .error e q => .error e q

/-- Carries out an action with another input, of which nothing is left afterwards. -/
def withInput (input : Text) (act : Act Unit) : Act Unit := fun p =>
  match act { p with input } with
  | .ok _ q => .ok () { q with input := p.input }
  | .error e q => .error e { q with input := p.input }

/-- Carries out an action and gives the streams back their targets. -/
def restoring (act : Act Unit) (inputToo : Bool) : Act Unit := fun p =>
  let restore := fun (q : Process) =>
    { q with out := p.out, err := p.err, input := if inputToo then p.input else q.input }
  match act p with
  | .ok _ q => .ok () (restore q)
  | .error e q => .error e (restore q)

def inLoop (act : Act Unit) : Act Unit := fun p =>
  match act { p with loops := p.loops + 1 } with
  | .ok _ q => .ok () { q with loops := p.loops }
  | .error e q => .error e { q with loops := p.loops }

/-- How deeply functions and programs may call each other. -/
def depthLimit : Nat := 500

/-- Carries out an action as another process, which inherits files, streams and what is exported. -/
def asProcess (name : Text) (args : List Text) (act : Act Unit) : Act Ending := fun p =>
  let child := { p with
    name, args, vars := p.environment, functions := [], status := 0, strict := false
    loops := 0, depth := p.depth + 1 }
  let back := fun (q : Process) =>
    { p with
      tree := { q.tree with current := p.tree.current }
      streams := q.streams
      input := q.input }
  if depthLimit ≤ p.depth then .error .endless p
  else match act child with
  | .ok _ q => .ok (.code q.status) (back q)
  | .error (.exit n) q => .ok (.code n) (back q)
  | .error (.back n) q => .ok (.code n) (back q)
  | .error (.loop ..) q => .ok (.code q.status) (back q)
  | .error (.killed n) q => .ok (.signal n) (back q)
  | .error .endless q => .error .endless (back q)

/-- Ends a strict script after a failure that nothing asked about. -/
def mind (tested : Bool) : Act Unit := do
  let p ← get
  if p.strict && !tested && p.status != 0 then throw (.exit p.status)

/-- What a shell says about a process that a signal ended. -/
def obituary (signal : Nat) : Text :=
  match signal with
  | 1 => "Hangup\n"
  | 3 => "Quit\n"
  | 4 => "Illegal instruction\n"
  | 6 => "Aborted\n"
  | 7 => "Bus error\n"
  | 8 => "Floating point exception\n"
  | 9 => "Killed\n"
  | 10 => "User defined signal 1\n"
  | 11 => "Segmentation fault\n"
  | 12 => "User defined signal 2\n"
  | 14 => "Alarm clock\n"
  | 15 => "Terminated\n"
  | _ => []

/-- Takes the ending of another process for the status. -/
def adopt : Ending → Act Unit
  | .code n => setStatus n
  | .signal n => do
    writeErr (obituary n)
    setStatus (128 + n)

/-! ## Redirections and programs -/

def openTarget (append : Bool) (name : Text) : Act (Option Target) := do
  let p ← get
  if name = "/dev/stdout".toList then return some p.out
  if name = "/dev/stderr".toList then return some p.err
  match p.tree.locate (pathOf name) with
  | .ok place =>
    if place = Tool.sinkPlace then return some .nowhere
    let open_ := if append then FileTree.appendFile else FileTree.writeFile
    match ← onTree (open_ (pathOf name) []) with
    | .ok _ => return some (.file place)
    | .error e => refuse name e
  | .error e => refuse name e
where
  refuse (name : Text) (e : IoError) : Act (Option Target) := do
    let why : Text := if e.kind = .notFound then "Directory nonexistent" else reason e
    complain ("cannot create " ++ name ++ ": " ++ why)
    pure none

/-- Redirects a stream to what its text names. The flag tells whether that was possible. -/
def redirect (stream : Nat) (kind : RedirectKind) (t : Text) : Act Bool := do
  let point := fun (target : Target) => modify fun (p : Process) =>
    if stream = 1 then { p with out := target }
    else if stream = 2 then { p with err := target }
    else p
  let p ← get
  match kind with
  | .hereText =>
    set { p with input := t }
    pure true
  | .read =>
    match p.tree.bytesOf (pathOf t) with
    | .ok data =>
      set { p with input := ofBytes data }
      pure true
    | .error e =>
      let why : Text := if e.kind = .notFound then "No such file" else reason e
      complain ("cannot open " ++ t ++ ": " ++ why)
      pure false
  | .duplicate =>
    match String.ofList t with
    | "1" => point p.out
    | "2" => point p.err
    | "-" => point .nowhere
    | _ => pure ()
    pure true
  | .write | .append =>
    match ← openTarget (kind = .append) t with
    | some target => do point target; pure true
    | none => pure false

/-- The program that reads a script, and an argument for it, as the script's first line says. -/
def interpreter? (data : Bytes) : Option (Text × List Text) :=
  let isSpace := fun c => c = ' ' || c = '\t'
  match ofBytes (data.take 256) with
  | '#' :: '!' :: r =>
    let line := (r.takeWhile (· ≠ '\n')).dropWhile isSpace
    let line := (line.reverse.dropWhile isSpace).reverse
    let program := line.takeWhile (!isSpace ·)
    let arg := (line.drop program.length).dropWhile isSpace
    if program.isEmpty then none else some (program, if arg.isEmpty then [] else [arg])
  | _ => none

/-- Where programs are looked for when nothing says so. -/
def defaultSearchPath : Text := "/bin:/usr/bin".toList

/-- The paths that a command name may stand for. -/
def Process.candidates (p : Process) (name : Text) : List Text :=
  let searchPath := (p.value? "PATH".toList).getD defaultSearchPath
  if name.isEmpty then []
  else if name.contains '/' then [name]
  else (Text.fields ':' searchPath).map fun dir => if dir.isEmpty then name else dir ++ '/' :: name

mutual

def partGlyphs : Nat → Bool → Part → Act (List Glyph)
  | 0, _, _ => throw .endless
  | n + 1, quoted, part => do
    let give := fun (t : Text) => t.map (if quoted then Glyph.hard else Glyph.soft)
    match part with
    | .plain c => pure [.bare c]
    | .fixed c => pure [.hard c]
    | .quoted ps =>
      let p ← get
      match ps with
      | [.parameter ['@'] none] => if p.args.isEmpty then pure [] else glyphs n true ps
      | _ => (Glyph.mark :: ·) <$> glyphs n true ps
    | .parameter name none =>
      let p ← get
      if name = ['@'] || (name = ['*'] && !quoted) then
        let one := fun t => (if quoted then [Glyph.mark] else []) ++ give t
        pure (List.intercalate [.cut] (p.args.map one))
      else pure (give ((p.value? name).getD []))
    | .parameter name (some (rule, word)) =>
      let p ← get
      let value := p.value? name
      let missing := fun (orEmpty : Bool) => value.isNone || (orEmpty && value == some [])
      match rule with
      | .length => pure (give (Text.decimal (value.getD []).length))
      | .default orEmpty =>
        if missing orEmpty then glyphs n quoted word else pure (give (value.getD []))
      | .alternative orEmpty => if missing orEmpty then pure [] else glyphs n quoted word
      | .assign orEmpty =>
        if missing orEmpty then do
          let t := Glyph.text (← glyphs n quoted word)
          modify (·.assign name t)
          pure (give t)
        else pure (give (value.getD []))
      | .require orEmpty =>
        if missing orEmpty then do
          let t := Glyph.text (← glyphs n quoted word)
          complain (name ++ ": " ++ (if t.isEmpty then "parameter not set".toList else t))
          throw (.exit 2)
        else pure (give (value.getD []))
      | .dropFront longest => do
        let ps := Pattern.ofGlyphs (← glyphs n false word)
        pure (give (Pattern.dropFront longest ps (value.getD [])))
      | .dropBack longest => do
        let ps := Pattern.ofGlyphs (← glyphs n false word)
        pure (give (Pattern.dropBack longest ps (value.getD [])))
    | .output script => do
      let t ← collect (run n false script)
      pure (give (t.reverse.dropWhile (· = '\n')).reverse)
    | .arithmetic ps => do
      let t := Glyph.text (← glyphs n true ps)
      let p ← get
      match Arithmetic.value (fun x => (p.value? x).getD []) t with
      | .ok k => pure (give (toString k).toList)
      | .error fault => do
        complain ("arithmetic expression: ".toList ++ fault.message ++ ": \"" ++ t ++ "\"")
        throw (.exit 2)

def glyphs : Nat → Bool → Word → Act (List Glyph)
  | 0, _, _ => throw .endless
  | _ + 1, _, [] => pure []
  | n + 1, quoted, part :: ps => do
    let front ← partGlyphs n quoted part
    let rest ← glyphs n quoted ps
    pure (front ++ rest)

def fields : Nat → List Word → Act (List Text)
  | 0, _ => throw .endless
  | _ + 1, [] => pure []
  | n + 1, word :: words => do
    let gs ← glyphs n false word
    let p ← get
    let front := Glyph.fields ((p.value? "IFS".toList).getD " \t\n".toList) gs
    let rest ← fields n words
    pure (front ++ rest)

/-- Redirects streams one after the other. The flag tells whether all of it was possible. -/
def redirectAll : Nat → List Redirect → Act Bool
  | 0, _ => throw .endless
  | _ + 1, [] => pure true
  | n + 1, .mk stream kind word :: rest => do
    let gs ← glyphs n false word
    if ← redirect stream kind (Glyph.text gs) then redirectAll n rest else pure false

def redirected : Nat → List Redirect → Act Unit → Act Unit
  | 0, _, _ => throw .endless
  | n + 1, rs, act =>
    let readsOther := rs.any fun r => match r with
      | .mk _ kind _ => kind = .read || kind = .hereText
    restoring (do if ← redirectAll n rs then act else setStatus 2) readsOther

/-- Carries out a script. With `tested` its failure is asked about. -/
def run : Nat → Bool → Script → Act Unit
  | 0, _, _ => throw .endless
  | n + 1, tested, script =>
    match script with
    | .nothing => pure ()
    | .followed a b => do
      run n tested a
      run n tested b
    | .both a b => do
      run n true a
      if (← get).status = 0 then run n tested b
    | .either a b => do
      run n true a
      if (← get).status != 0 then run n tested b
    | .negated a => do
      run n true a
      setStatus (if (← get).status = 0 then 1 else 0)
    | .piped a b => do
      let t ← collect (run n true a)
      withInput t (apart (run n true b))
      mind tested
    | .choice condition yes no => do
      run n true condition
      if (← get).status = 0 then run n tested yes
      else do
        setStatus 0
        run n tested no
    | .repeated whileFails condition body => inLoop (loop n tested whileFails condition body 0)
    | .forEach name items body => do
      let ts ← match items with
        | some words => fields n words
        | none => do pure (← get).args
      setStatus 0
      inLoop (each n tested name ts body)
    | .matching subject cases => do
      let t := Glyph.text (← glyphs n false subject)
      setStatus 0
      clause n tested t cases
    | .grouped inside body rs => do
      redirected n rs (if inside then apart (run n tested body) else run n tested body)
      mind tested
    | .function name body =>
      modify fun p => { p with functions := (name, body) :: p.functions, status := 0 }
    | .simple line assignments words rs => do
      modify fun p => { p with line }
      match ← fields n words with
      | [] => do
        setStatus 0
        redirected n rs (assignAll n assignments)
      | name :: args =>
        if name = "exec".toList && args.isEmpty then do
          setStatus 0
          unless ← redirectAll n rs do throw (.exit 2)
        else redirected n rs do
          let p ← get
          assignAll n assignments
          modify fun q => { q with exported := assignments.map (·.1) ++ q.exported }
          invoke n name args
          unless assignments.isEmpty do
            modify fun q => { q with vars := p.vars, exported := p.exported }
      mind tested

def assignAll : Nat → List (Text × Word) → Act Unit
  | 0, _ => throw .endless
  | _ + 1, [] => pure ()
  | n + 1, (name, word) :: rest => do
    let t := Glyph.text (← glyphs n false word)
    modify (·.assign name t)
    assignAll n rest

/-- Carries out a loop; `last` is the status if the body is not carried out again. -/
def loop : Nat → Bool → Bool → Script → Script → Nat → Act Unit
  | 0, _, _, _, _, _ => throw .endless
  | n + 1, tested, whileFails, condition, body, last => fun p =>
    match run n true condition p with
    | .error (.loop again 1) q =>
      if again then loop n tested whileFails condition body last q
      else .ok () { q with status := 0 }
    | .error (.loop again (k + 2)) q => .error (.loop again (k + 1)) q
    | .error e q => .error e q
    | .ok _ q =>
      if (q.status == 0) == whileFails then .ok () { q with status := last }
      else match run n tested body q with
        | .ok _ q => loop n tested whileFails condition body q.status q
        | .error (.loop again (k + 2)) q => .error (.loop again (k + 1)) q
        | .error (.loop again _) q =>
          if again then loop n tested whileFails condition body 0 q
          else .ok () { q with status := 0 }
        | .error e q => .error e q

def each : Nat → Bool → Text → List Text → Script → Act Unit
  | 0, _, _, _, _ => throw .endless
  | _ + 1, _, _, [], _ => pure ()
  | n + 1, tested, name, t :: ts, body => fun p =>
    match run n tested body (p.assign name t) with
    | .ok _ q => each n tested name ts body q
    | .error (.loop again (k + 2)) q => .error (.loop again (k + 1)) q
    | .error (.loop again _) q =>
      let q := { q with status := 0 }
      if again then each n tested name ts body q else .ok () q
    | .error e q => .error e q

/-- Carries out the first clause with a pattern that the text has the form of. -/
def clause : Nat → Bool → Text → List (List Word × Script) → Act Unit
  | 0, _, _, _ => throw .endless
  | _ + 1, _, _, [] => pure ()
  | n + 1, tested, t, (patterns, body) :: rest => do
    if ← anyPattern n t patterns then run n tested body else clause n tested t rest

def anyPattern : Nat → Text → List Word → Act Bool
  | 0, _, _ => throw .endless
  | _ + 1, _, [] => pure false
  | n + 1, t, word :: words => do
    let gs ← glyphs n false word
    if Pattern.accepts (Pattern.ofGlyphs gs) t then pure true else anyPattern n t words

def invoke : Nat → Text → List Text → Act Unit
  | 0, _, _ => throw .endless
  | n + 1, name, args => do
    let p ← get
    match p.functions.lookup name with
    | some body => callFunction n body args
    | none =>
      if name = "eval".toList then
        let t := List.intercalate [' '] args
        runText n (Text.feeds t) t
      else if name = "command".toList then
        match args with
        | [] => setStatus 0
        | a :: rest => invoke n a rest
      else if name = "exec".toList then
        match args with
        | [] => setStatus 0
        | a :: rest => do
          match ← start n (p.candidates a) a rest with
          | .ok (.code k) => throw (.exit k)
          | .ok (.signal k) => throw (.killed k)
          | .error e => do
            let why : Text := if e.kind = .notFound then "not found" else reason e
            complain ("exec: " ++ a ++ ": " ++ why)
            throw (.exit (if e.kind = .notFound then 127 else 126))
      else match Builtin.find? name args with
      | some act => do setStatus (← act)
      | none => do
        match ← start n (p.candidates name) name args with
        | .ok ending => adopt ending
        | .error e =>
          if e = .os .noExecFormat then adopt (← shell n false false name (name :: args))
          else if e.kind = .notFound || e.kind = .notADirectory then do
            complain (name ++ ": not found")
            setStatus 127
          else do
            complain (name ++ ": " ++ reason e)
            setStatus 126

/-- Carries out the body of a function with arguments of its own. -/
def callFunction : Nat → Script → List Text → Act Unit
  | 0, _, _ => throw .endless
  | n + 1, body, args => fun p =>
    if depthLimit ≤ p.depth then .error (.killed 11) p
    else
      let back := fun (q : Process) => { q with args := p.args, depth := p.depth }
      match run n false body { p with args, depth := p.depth + 1 } with
      | .ok _ q => .ok () (back q)
      | .error (.back k) q => .ok () { back q with status := k }
      | .error e q => .error e (back q)

/-- Carries out a text as a script, line by line. -/
def runText : Nat → Nat → Text → Act Unit
  | 0, _, _ => throw .endless
  | n + 1, feeds, s => do
    let s := skipBreaks s
    if s.isEmpty then pure ()
    else match nextLine feeds s with
      | none => do
        modify fun p => { p with line := feeds + 1 - s.count '\n' }
        complain "Syntax error: end of file unexpected"
        throw (.exit 2)
      | some (script, rest) => do
        run n false script
        runText n feeds rest

/-- Starts the first program there is among some paths, and waits for it. -/
def start : Nat → List Text → Text → List Text → Act (Except IoError Ending)
  | 0, _, _, _ => throw .endless
  | _ + 1, [], _, _ => pure (.error (.os .noEntry))
  | n + 1, path :: paths, name, args => do
    match ← launch n path (name :: args) with
    | .ok ending => pure (.ok ending)
    | .error e =>
      if e.kind = .notFound || e.kind = .notADirectory || e.kind = .permissionDenied then do
        if paths.isEmpty then pure (.error e)
        else match ← start n paths name args with
          | .error later =>
            let vague := later.kind = .notFound || later.kind = .notADirectory
            pure (.error (if vague && e.kind = .permissionDenied then e else later))
          | ended => pure ended
      else pure (.error e)

/-- Starts the program at a path with its name and arguments, and waits for it. -/
def launch : Nat → Text → List Text → Act (Except IoError Ending)
  | 0, _, _ => throw .endless
  | n + 1, path, argv => do
    let p ← get
    match p.tree.stat (pathOf path), p.tree.locate (pathOf path) with
    | .error e, _ => pure (.error e)
    | _, .error e => pure (.error e)
    | .ok .directory, _ => pure (.error (.os .permission))
    | .ok (.file data runnable), .ok place =>
      if !runnable then pure (.error (.os .permission))
      else match Tool.at? place with
        | some tool => .ok <$> useTool n tool argv
        | none => match interpreter? data with
          | some (program, extra) => launch n program (program :: extra ++ path :: argv.drop 1)
          | none => pure (.error (.os .noExecFormat))

def useTool : Nat → Text → List Text → Act Ending
  | 0, _, _ => throw .endless
  | n + 1, tool, argv =>
    let args := argv.drop 1
    if Tool.shells.contains tool then shell n false false (argv.headD tool) args
    else if tool = "env".toList && !args.isEmpty then
      asProcess tool [] (envCommand n args)
    else asProcess tool [] (do setStatus (← Tool.run tool args))

/-- Runs a command with some variables exported to it. -/
def envCommand : Nat → List Text → Act Unit
  | 0, _ => throw .endless
  | _ + 1, [] => do setStatus (← Tool.run "env".toList [])
  | n + 1, a :: rest => do
    match Builtin.definition a with
    | (name, some value) => do
      modify fun p => { p.assign name value with exported := name :: p.exported }
      envCommand n rest
    | (name, none) => do
      let p ← get
      match ← start n (p.candidates name) name rest with
      | .ok ending => adopt ending
      | .error e => do
        writeErr ("env: " ++ Tool.quote name ++ ": " ++ reason e ++ "\n")
        setStatus (if e.kind = .notFound then 127 else 126)

/-- Runs a shell: on the text of an argument, on a file, or on its input. -/
def shell : Nat → Bool → Bool → Text → List Text → Act Ending
  | 0, _, _, _, _ => throw .endless
  | n + 1, fromText, strict, name, args => do
    let go := fun (name : Text) (args : List Text) (t : Text) => asProcess name args do
      modify fun p => { p with strict }
      runText n (Text.feeds t) t
    let flags := match args with
      | ('-' :: c :: r) :: _ =>
        if (c :: r).all ("cefuxnv".toList.contains ·) then some (c :: r) else none
      | _ => none
    match flags with
    | some letters =>
      shell n (fromText || letters.contains 'c') (strict || letters.contains 'e') name (args.drop 1)
    | none =>
      let args := if args.head? == some ['-', '-'] then args.drop 1 else args
      match fromText, args with
      | true, script :: rest => go (rest.headD name) (rest.drop 1) script
      | true, [] => do
        writeErr (name ++ ": 0: -c requires an argument\n")
        pure (.code 2)
      | false, file :: rest => do
        let p ← get
        match p.tree.bytesOf (pathOf file) with
        | .ok data => go file rest (ofBytes data)
        | .error e => do
          let why : Text := if e.kind = .notFound then "No such file" else reason e
          writeErr (name ++ ": 0: cannot open " ++ file ++ ": " ++ why ++ "\n")
          pure (.code 2)
      | false, [] => do
        let p ← get
        set { p with input := [] }
        go name [] p.input

end

/-- How far a script goes before it counts as endless. -/
def patience : Nat := 20000

end LineRepl.Shell
