import LineRepl.Failure
import LineRepl.Files.Path

/-!
A tree of files and directories with a current directory. Nodes are kept by the names that lead to
them from the root. A path is followed name by name, and every step but the last needs a directory;
this is what decides between the causes "no entry" and "not a directory".
-/
namespace LineRepl

inductive Node
  | directory
  /-- A regular file. Only a runnable one can be started as a program. -/
  | file (data : Bytes) (runnable : Bool)
  deriving DecidableEq, Repr

structure FileTree where
  /-- Where relative paths start. -/
  current : List Text
  nodes : List (List Text × Node)

namespace FileTree

/-- An action on the tree that may fail and keeps what it did before it failed. -/
abbrev Action := EStateM IoError FileTree

def node? (t : FileTree) (names : List Text) : Option Node :=
  if names = [] then some .directory else t.nodes.lookup names

def put (t : FileTree) (names : List Text) (n : Node) : FileTree :=
  { t with nodes := (names, n) :: t.nodes.filter (·.1 != names) }

def drop (t : FileTree) (names : List Text) : FileTree :=
  { t with nodes := t.nodes.filter (·.1 != names) }

/-- A name can be this many bytes long. -/
def nameLimit : Nat := 255

/-- Follows the fields of a path. The place it ends at need not exist, all before it must. -/
def follow (t : FileTree) (here : List Text) : List Text → Except OsCause (List Text)
  | [] => .ok here
  | f :: fs =>
    match t.node? here with
    | none => .error .noEntry
    | some (.file ..) => .error .notDirectory
    | some .directory =>
      if f = [] || f = ['.'] then follow t here fs
      else if f = ['.', '.'] then follow t here.dropLast fs
      else if f.byteSize > nameLimit then .error .nameTooLong
      else follow t (here ++ [f]) fs

/-- The place that a path names. -/
def locate (t : FileTree) (p : Path) : Except IoError (List Text) :=
  if p.text.isEmpty then .error (.os .noEntry)
  else if p.text.contains '\x00' then
    .error ⟨.invalidInput, "file name contained an unexpected NUL byte"⟩
  else (t.follow (if p.isAbsolute then [] else t.current) (Text.fields '/' p.text)).mapError .os

def stat (t : FileTree) (p : Path) : Except IoError Node :=
  match t.locate p with
  | .error e => .error e
  | .ok names => match t.node? names with
    | none => .error (.os .noEntry)
    | some n => .ok n

def pathExists (t : FileTree) (p : Path) : Bool := (t.stat p).toOption.isSome

def isFile (t : FileTree) (p : Path) : Bool :=
  match t.stat p with
  | .ok (.file ..) => true
  | _ => false

def isDirectory (t : FileTree) (p : Path) : Bool :=
  match t.stat p with
  | .ok .directory => true
  | _ => false

def bytesOf (t : FileTree) (p : Path) : Except IoError Bytes :=
  match t.stat p with
  | .error e => .error e
  | .ok .directory => .error (.os .isDirectory)
  | .ok (.file data _) => .ok data

/-- Without the slashes at the end. -/
def withoutSlash (p : Path) : Path := ⟨(p.text.reverse.dropWhile (· = '/')).reverse⟩

/-- The place where opening for writing finds or creates a file. A path that ends in a slash asks
for a directory, and a directory cannot be written. -/
def fileTarget (t : FileTree) (p : Path) : Except IoError (List Text) :=
  if p.text.getLast? = some '/' then
    match t.stat (withoutSlash p) with
    | .ok (.file ..) => .error (.os .notDirectory)
    | .ok .directory => .error (.os .isDirectory)
    | .error e => if e = .os .noEntry then
        (t.locate (withoutSlash p)).bind fun _ => .error (.os .isDirectory)
      else .error e
  else t.locate p

/-- Changes the bytes of a file, which is created empty when it is missing. -/
def modifyFile (p : Path) (f : Bytes → Bytes) : Action Unit := fun t =>
  match t.fileTarget p with
  | .error e => .error e t
  | .ok names => match t.node? names with
    | some .directory => .error (.os .isDirectory) t
    | some (.file data runnable) => .ok () (t.put names (.file (f data) runnable))
    | none => .ok () (t.put names (.file (f []) false))

def writeFile (p : Path) (data : Bytes) : Action Unit := modifyFile p fun _ => data

def appendFile (p : Path) (data : Bytes) : Action Unit := modifyFile p (· ++ data)

/-- Cuts a file down, or fills it up with zero bytes. The file must be there. -/
def resizeFile (p : Path) (size : Nat) : Action Unit := fun t =>
  match t.locate p with
  | .error e => .error e t
  | .ok names => match t.node? names with
    | none => .error (.os .noEntry) t
    | some .directory => .error (.os .isDirectory) t
    | some (.file data runnable) =>
      let zeros := List.replicate (size - data.length) 0
      .ok () (t.put names (.file (data.take size ++ zeros) runnable))

/-- Makes one directory. Its parent must be there. -/
def makeDirectory (p : Path) : Action Unit := fun t =>
  let q := if (withoutSlash p).text.isEmpty then p else withoutSlash p
  match t.locate q with
  | .error e => .error e t
  | .ok names => match t.node? names with
    | some _ => .error (.os .exists) t
    | none => .ok () (t.put names .directory)

/-- Makes a directory and, where they are missing, those above it. The first number bounds how far
up this goes. -/
def makeDirectoriesWithin : Nat → Path → Action Unit
  | 0, _ => fun t => .ok () t
  | n + 1, p => fun t =>
    if p.text.isEmpty then .ok () t
    else match makeDirectory p t with
    | .ok _ t => .ok () t
    | .error e t =>
      if e.kind = .notFound then
        match p.parent? with
        | none => .error ⟨.uncategorized, "failed to create whole tree"⟩ t
        | some q => match makeDirectoriesWithin n q t with
          | .error e t => .error e t
          | .ok _ t => match makeDirectory p t with
            | .ok _ t => .ok () t
            | .error e t => if t.isDirectory p then .ok () t else .error e t
      else if t.isDirectory p then .ok () t
      else .error e t

/-- Makes a directory and, where they are missing, those above it. -/
def makeDirectories (p : Path) : Action Unit :=
  makeDirectoriesWithin (p.names.length + 2) p

/-- A tree that holds only the current directory and those above it. -/
def empty (current : List Text) : FileTree :=
  ⟨current, (List.range current.length).map fun i => (current.take (i + 1), .directory)⟩

end FileTree
end LineRepl
