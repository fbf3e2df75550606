import LineRepl.Build.Toolchain

/-! Tools that are called by their path. A tool that is no shell and only writes to its streams is found
at the path, answers, and leaves every file as it was, so that calling it comes to what it answers and
writes. -/
namespace LineRepl.Shell

open Attempt

variable {env : Environment} {tree : FileTree} {place : List Text} {data : Bytes}
  {program tool : Text} {args : List Text} {p : Process} {k : Nat} {streams : Array (Array Char)}

/-- Another process as it is when a tool begins. -/
def Process.child (p : Process) (name : Text) : Process :=
  { p with
    name, args := [], vars := p.environment, functions := [], status := 0, strict := false
    loops := 0, depth := p.depth + 1 }

/-- What a process writes that changes no file. -/
theorem asProcess_of_writes {name : Text} {act : Act Nat} (hd : p.depth < depthLimit)
    (h : act (p.child name) = .ok k { p.child name with streams }) :
    asProcess name [] (do setStatus (← act)) p = .ok (.code k) { p with streams } := by
  unfold asProcess
  rw [if_neg (Nat.not_le_of_lt hd), bind_apply]
  simp only [Process.child] at h
  rw [h]
  rfl

/-- A tool that is called by its path is found at it. -/
theorem start_tool (n : Nat) (hl : p.tree.locate (pathOf program) = .ok place)
    (hn : p.tree.node? place = some (.file data true)) (ht : Tool.at? place = some tool)
    (hshell : tool ∉ Tool.shells) (henv : tool = "env".toList → args = []) {q : Process}
    (h : asProcess tool [] (do setStatus (← Tool.run tool args)) p = .ok (.code k) q) :
    start (n + 3) [program] program args p = .ok (.ok (.code k)) q := by
  have hstat : p.tree.stat (pathOf program) = .ok (.file data true) := by
    simp only [FileTree.stat, hl, hn]
  have hplain : ¬ (decide (tool = "env".toList) && !args.isEmpty) = true := by
    rw [Bool.and_eq_true, decide_eq_true_iff]
    intro hc
    rw [henv hc.1] at hc
    exact Bool.false_ne_true hc.2
  simp only [start, launch, useTool, bind_apply, get_apply, hstat, hl, ht, Bool.not_true,
    Bool.false_eq_true, if_false, List.contains_iff_mem, hshell, List.drop_succ_cons, List.drop_zero]
  rw [if_neg hplain, map_apply, h]
  rfl

/-- What a program begins with that is called from outside. -/
def outermost (env : Environment) (tree : FileTree) : Process :=
  let vars := env.vars.map fun (name, value) => (ofText name, ofText value)
  { tree, vars, exported := vars.map (·.1) }

/-- A tool that answers `k`, and writes this and nothing to any file. -/
theorem call_tool (hzero : (program :: args).any (·.contains '\x00') = false)
    (hslash : (ofText program).contains '/' = true)
    (hl : tree.locate (pathOf (ofText program)) = .ok place)
    (hn : tree.node? place = some (.file data true)) (ht : Tool.at? place = some tool)
    (hshell : tool ∉ Tool.shells) (henv : tool = "env".toList → args = []) {out : Array Char}
    (hrun : Tool.run tool (args.map ofText) ((outermost env tree).child tool) =
      .ok k { (outermost env tree).child tool with streams := #[out, #[]] }) :
    call env program args tree =
      .ok (some { exitCode := k, stdout := Bytes.lossyText (bytesOf out.toList) }) tree := by
  have hne : (ofText program).isEmpty = false := by
    cases hp : ofText program with
    | nil => rw [hp] at hslash; cases hslash
    | cons c t => rfl
  have hcand : (outermost env tree).candidates (ofText program) = [ofText program] := by
    simp only [Process.candidates, hne, hslash, Bool.false_eq_true, if_false, if_true]
  have hdepth : (outermost env tree).depth < depthLimit := Nat.zero_lt_succ _
  obtain ⟨n, hpatience⟩ := Nat.exists_eq_add_of_le' (show 3 ≤ patience by decide)
  have hstart := start_tool n (p := outermost env tree) hl hn ht hshell
    (fun he => congrArg (List.map ofText) (henv he)) (asProcess_of_writes hdepth hrun)
  rw [← hcand, ← hpatience] at hstart
  unfold call
  rw [if_neg (hzero ▸ Bool.false_ne_true)]
  simp only [outermost] at hstart
  simp only [hstart]
  rfl

/-! ## Two tools -/

theorem run_true (args : List Text) (p : Process) : Tool.run "true".toList args p = .ok 0 p := rfl

/-- What a program finds of its environment, a variable on each line. -/
def listed (env : Environment) : Text :=
  ((outermost env (FileTree.empty [])).child "env".toList).environment.flatMap fun (name, value) =>
    name ++ '=' :: value ++ ['\n']

theorem run_env (env : Environment) (tree : FileTree) :
    Tool.run "env".toList [] ((outermost env tree).child "env".toList) =
      .ok 0 { (outermost env tree).child "env".toList with
        streams := #[#[].appendList (listed env), #[]] } := rfl

theorem call_true (env : Environment) (hzero : args.any (·.contains '\x00') = false)
    (hl : tree.locate "/bin/true" = .ok ["bin".toList, "true".toList])
    (hn : tree.node? ["bin".toList, "true".toList] = some (.file data true)) :
    call env "/bin/true".toList args tree = .ok (some {}) tree := by
  have hpath : pathOf (ofText "/bin/true".toList) = "/bin/true" := rfl
  have hplain : ("/bin/true".toList :: args).any (·.contains '\x00') = false := hzero
  exact call_tool hplain rfl (hpath ▸ hl) hn rfl (by decide)
    (fun h => absurd h (by decide)) (run_true _ _)

theorem call_env (env : Environment)
    (hl : tree.locate "/bin/env" = .ok ["bin".toList, "env".toList])
    (hn : tree.node? ["bin".toList, "env".toList] = some (.file data true)) :
    call env "/bin/env".toList [] tree =
      .ok (some { stdout := Bytes.lossyText (bytesOf (listed env)) }) tree := by
  have hpath : pathOf (ofText "/bin/env".toList) = "/bin/env" := rfl
  have hslash : (ofText "/bin/env".toList).contains '/' = true := rfl
  have h := call_tool rfl hslash (hpath ▸ hl) hn rfl (by decide) (fun _ => rfl) (run_env env tree)
  rwa [Array.appendList_eq_append, Array.toList_appendList] at h

end LineRepl.Shell
