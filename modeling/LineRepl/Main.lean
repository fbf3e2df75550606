import LineRepl.Startup.Program

/-!
The command line program. It takes a picture of the files around it and of its input, runs on that
picture, and then writes what has changed.
-/
namespace LineRepl.Machine

/-- Reads all of a stream. -/
partial def readAll (stream : IO.FS.Stream) (front : ByteArray) : IO ByteArray := do
  let chunk ← stream.read 65536
  if chunk.isEmpty then pure front else readAll stream (front ++ chunk)

/-- Adds a directory, with so many levels below it, to a tree. What cannot be read is left out. A
file can be run when its first line names a program. -/
def gather : Nat → String → List Text → FileTree → IO FileTree
  | 0, _, _, tree => pure tree
  | depth + 1, dir, place, tree => do
    let entries ← try (← IO.FS.realPath dir).readDir catch _ => pure #[]
    entries.foldlM (fun tree entry => do
      let path := dir ++ "/" ++ entry.fileName
      let place := place ++ [entry.fileName.toList]
      try
        if ← entry.path.isDir then gather depth path place (tree.put place .directory)
        else
          let data := (← IO.FS.readBinFile path).toList
          pure (tree.put place (.file data (Shell.interpreter? data).isSome))
      catch _ => pure tree) tree

/-- How many levels below a directory are looked at. -/
def depth : Nat := 8

def environment : IO Environment := do
  let names := ["HOME", "PATH", "XDG_CONFIG_HOME", "CREPPL_COMPILER", "CREPPL_STD",
    "CREPPL_WORKDIR"]
  let vars ← names.filterMapM fun name => do
    pure ((← IO.getEnv name).map fun value => (name.toList, value.toList))
  pure ⟨vars, "/root"⟩

/-- The files of the current directory, and those of the user that settings lead to. -/
def files (env : Environment) : IO FileTree := do
  let here := (← IO.currentDir).toString
  let place := (Path.mk here.toList).names
  let mut tree ← gather depth here place (Shell.Tool.install (FileTree.empty place))
  for dir in [env.home.join ".creppl", env.settingsRoot.join "creppl"] do
    if dir.isAbsolute then
      let above : FileTree.Action Unit := FileTree.makeDirectories dir
      match above tree with
      | .ok _ t => tree ← gather depth (String.ofList dir.text) dir.names t
      | .error .. => pure ()
  pure tree

/-- Writes the files that are not as they were. -/
def store (before after : FileTree) : IO Unit :=
  after.nodes.reverse.forM fun (place, node) => do
    if before.node? place != some node then
      let path := "/" ++ String.ofList (Path.ofNames place)
      match node with
      | .directory => IO.FS.createDirAll path
      | .file data _ => IO.FS.writeBinFile path ⟨data.toArray⟩

/-- Seconds since 1970, as the system notes them when the process begins. -/
def clock : IO Nat := do
  try
    pure (← (← IO.FS.realPath "/proc/self").metadata).modified.sec.toNat
  catch _ => pure 0

end LineRepl.Machine

open LineRepl in
def main (args : List String) : IO UInt32 := do
  let env ← Machine.environment
  let tree ← Machine.files env
  let stdout ← IO.getStdout
  let input ← Machine.readAll (← IO.getStdin) ByteArray.empty
  let departure := Invocation.run
    { args := args.map String.toList
      env
      tree
      input := input.toList
      colour := ← stdout.isTty
      secs := ← Machine.clock }
  stdout.write ⟨departure.stdout.toArray⟩
  stdout.flush
  (← IO.getStderr).putStr (String.ofList departure.stderr)
  Machine.store tree departure.tree
  pure (UInt32.ofNat departure.exitCode)
