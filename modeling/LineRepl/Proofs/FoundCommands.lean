import LineRepl.Proofs.Precedence
import LineRepl.Proofs.SessionInvariants
import LineRepl.Startup.Program

/-! The command that is looked for before a session, and the one that the session calls. It is looked for
without the blanks around it, and called with them, each time that the program is built. So a session
calls what was found exactly if there are no blanks around its command. -/
namespace LineRepl

open Attempt

/-! ## Trimming -/

namespace Text

variable {t : Text} {c : Char}

/-- What trimming removes is blank. -/
theorem exists_trim (t : Text) :
    ∃ lead tail : Text, Blank lead ∧ Blank tail ∧ t = lead ++ (trim t ++ tail) := by
  have hblank (u : Text) : Blank (u.takeWhile isBlank) :=
    fun c hc => List.all_eq_true.mp List.all_takeWhile c hc
  refine ⟨t.takeWhile isBlank, ((trimStart t).reverse.takeWhile isBlank).reverse, hblank t,
    fun c hc => hblank _ c (List.mem_reverse.mp hc), ?_⟩
  rw [trim, trimEnd, ← List.reverse_append, List.takeWhile_append_dropWhile, List.reverse_reverse,
    trimStart, List.takeWhile_append_dropWhile]

theorem mem_trim_iff (hc : isBlank c = false) : c ∈ trim t ↔ c ∈ t := by
  obtain ⟨lead, tail, hl, ht, h⟩ := exists_trim t
  have hnot {u : Text} (hu : Blank u) : c ∉ u := fun hm => by
    rw [hu c hm] at hc
    cases hc
  have hmem : c ∈ t ↔ c ∈ lead ++ (trim t ++ tail) := by rw [← h]
  rw [hmem]
  simp only [List.mem_append, hnot hl, hnot ht, false_or, or_false]

end Text

/-! ## Where a command is found -/

namespace FileTree

/-- A command is found at the path that it is, or in the first directory of the search path that has a
file of its name. An empty directory is passed over. -/
inductive Finds (t : FileTree) (searchPath : Option Text) (command : Text) : Path → Prop
  | path (hslash : '/' ∈ command) (h : t.isFile ⟨command⟩ = true) :
      Finds t searchPath command ⟨command⟩
  | listed {dirs dir : Text} {before after : List Text} (hslash : '/' ∉ command)
      (hpath : searchPath = some dirs) (hdirs : Text.fields ':' dirs = before ++ dir :: after)
      (hdir : dir ≠ []) (h : t.isFile (Path.join ⟨dir⟩ ⟨command⟩) = true)
      (hfirst : ∀ d ∈ before, d ≠ [] → t.isFile (Path.join ⟨d⟩ ⟨command⟩) = false) :
      Finds t searchPath command (Path.join ⟨dir⟩ ⟨command⟩)

variable {t : FileTree} {searchPath : Option Text} {command command' : Text} {file : Path}

/-- The first file of a name in the directories of a search path that are not empty. -/
theorem find?_join_eq_some_iff {dirs : List Text} :
    ((dirs.filter (!·.isEmpty)).map fun dir => Path.join ⟨dir⟩ ⟨command⟩).find? t.isFile =
        some file ↔
      ∃ before dir after, dirs = before ++ dir :: after ∧ dir ≠ [] ∧
        Path.join ⟨dir⟩ ⟨command⟩ = file ∧ t.isFile file = true ∧
        ∀ d ∈ before, d ≠ [] → t.isFile (Path.join ⟨d⟩ ⟨command⟩) = false := by
  rw [List.find?_map, List.find?_filter, Option.map_eq_some_iff]
  simp only [List.find?_eq_some_iff_append, decide_eq_true_eq, Bool.not_eq_true',
    List.isEmpty_eq_false_iff, Function.comp_apply, decide_eq_false_iff_not, not_and,
    Bool.not_eq_true]
  constructor
  · rintro ⟨dir, ⟨⟨hdir, h⟩, before, after, hdirs, hfirst⟩, rfl⟩
    exact ⟨before, dir, after, hdirs, hdir, rfl, h, hfirst⟩
  · rintro ⟨before, dir, after, hdirs, hdir, rfl, h, hfirst⟩
    exact ⟨dir, ⟨⟨hdir, h⟩, before, after, hdirs, hfirst⟩, rfl⟩

theorem findCommand_eq_some_iff :
    t.findCommand command searchPath = some file ↔ t.Finds searchPath command file := by
  unfold findCommand
  by_cases hslash : '/' ∈ command
  · rw [if_pos (List.contains_iff_mem.mpr hslash), Option.ite_none_right_eq_some]
    constructor
    · rintro ⟨h, ⟨⟩⟩
      exact .path hslash h
    · rintro (⟨-, h⟩ | hno)
      · exact ⟨h, rfl⟩
      · exact absurd hslash hno
  · rw [if_neg (mt List.contains_iff_mem.mp hslash), find?_join_eq_some_iff]
    constructor
    · rintro ⟨before, dir, after, hdirs, hdir, rfl, h, hfirst⟩
      cases searchPath with
      | some dirs => exact .listed hslash rfl hdirs hdir h hfirst
      | none =>
        -- without a search path there is one field, and it is empty
        have hmem : dir ∈ ([[]] : List Text) := by
          rw [show [[]] = before ++ dir :: after from hdirs]
          exact List.mem_append_right before List.mem_cons_self
        exact absurd (List.mem_singleton.mp hmem) hdir
    · rintro (hno | ⟨-, rfl, hdirs, hdir, h, hfirst⟩)
      · exact absurd hno hslash
      · exact ⟨_, _, _, hdirs, hdir, rfl, h, hfirst⟩

/-- A path in a directory ends in its name. -/
theorem getLast?_fields_join {dir name : Text} (hdir : dir ≠ []) (hname : '/' ∉ name) :
    (Text.fields '/' (Path.join ⟨dir⟩ ⟨name⟩).text).getLast? = some name := by
  have hrel : Path.isAbsolute ⟨name⟩ = false := by
    refine beq_eq_false_iff_ne.mpr fun h => hname ?_
    exact List.mem_of_mem_head? h
  obtain ⟨hempty, -⟩ | ⟨front, -, -, -, -, hjoin⟩ := Path.join_cases (p := ⟨dir⟩) hrel
  · exact absurd hempty hdir
  · rw [hjoin, Text.fields_append, Text.fields_of_notMem hname, List.getLast?_concat]

theorem Finds.eq_of_slash (h : t.Finds searchPath command file) (hslash : '/' ∈ command) :
    file = ⟨command⟩ := by
  cases h with
  | path => rfl
  | listed hno => exact absurd hslash hno

theorem Finds.getLast?_fields (h : t.Finds searchPath command file) (hslash : '/' ∉ command) :
    (Text.fields '/' file.text).getLast? = some command := by
  cases h with
  | path hs => exact absurd hs hslash
  | listed _ _ _ hdir => exact getLast?_fields_join hdir hslash

/-- Two commands of one kind are not found at the same place. -/
theorem Finds.command_eq (h : t.Finds searchPath command file)
    (h' : t.Finds searchPath command' file) (hslash : '/' ∈ command ↔ '/' ∈ command') :
    command = command' := by
  by_cases hs : '/' ∈ command
  · exact Path.mk.inj ((h.eq_of_slash hs).symm.trans (h'.eq_of_slash (hslash.mp hs)))
  · exact Option.some.inj
      ((h.getLast?_fields hs).symm.trans (h'.getLast?_fields (mt hslash.mpr hs)))

end FileTree

/-! ## What is called -/

namespace Workplace

variable {σ α ε : Type}

/-- A way to call programs: within so many seconds, by name and arguments. -/
abbrev Caller (σ : Type) := Nat → Text → List Text → EStateM ToolchainError σ ExecOutput

/-- Building and running, in whatever way the programs are called. -/
def buildAndRunBy (caller : Caller σ) (c : CompilerSettings) (program source : Path) :
    EStateM ToolchainError σ RunReport := do
  let build ← caller c.timeoutSecs c.command (c.arguments program source)
  if build.success then do
    let run ← caller c.timeoutSecs program.text []
    pure ⟨build, some run⟩
  else pure ⟨build, none⟩

/-- Notes the name of each program that is called. -/
def noting (caller : Caller σ) : Caller (List Text × σ) := fun secs program args (names, s) =>
  match caller secs program args s with
  | .ok output s => .ok output (names ++ [program], s)
  | .error e s => .error e (names ++ [program], s)

/-- The programs that are called to build and run a source file, in their order. -/
def programsCalled (w : Workplace) (source : Path) : List Text :=
  (final (buildAndRunBy (noting (call w.env)) w.compiler w.program source ([], w.store.tree))).1

theorem buildAndRun_eq (source : Path) : buildAndRun source = fun w =>
    onTree (buildAndRunBy (call w.env) w.compiler w.program source) w := rfl

/-- Taking notes changes nothing. The command is called first, and after it at most the program. -/
theorem buildAndRunBy_noting (caller : Caller σ) (c : CompilerSettings) (program source : Path)
    (s : σ) : ∃ rest, (rest = [] ∨ rest = [program.text]) ∧
      buildAndRunBy (noting caller) c program source ([], s) =
        match buildAndRunBy caller c program source s with
        | .ok r s => .ok r (c.command :: rest, s)
        | .error e s => .error e (c.command :: rest, s) := by
  unfold buildAndRunBy
  simp only [bind_apply, noting]
  cases caller c.timeoutSecs c.command (c.arguments program source) s with
  | error e s => exact ⟨[], .inl rfl, rfl⟩
  | ok build s =>
    dsimp only
    cases build.success with
    | false => exact ⟨[], .inl rfl, rfl⟩
    | true =>
      refine ⟨[program.text], .inr rfl, ?_⟩
      simp only [if_true, bind_apply, noting]
      cases caller c.timeoutSecs program.text [] s <;> rfl

theorem head?_programsCalled (w : Workplace) (source : Path) :
    (w.programsCalled source).head? = some w.compiler.command := by
  obtain ⟨rest, -, h⟩ := buildAndRunBy_noting (call w.env) w.compiler w.program source w.store.tree
  rw [programsCalled, h]
  cases buildAndRunBy (call w.env) w.compiler w.program source w.store.tree <;> rfl

theorem onTree_keeps {act : EStateM ε FileTree α} {w : Workplace} {c : CompilerSettings}
    (h : w.compiler = c) :
    Ends (onTree act) w (fun _ w => w.compiler = c) fun _ w => w.compiler = c :=
  .within_rest fun _ => h

/-- Nothing that a session does changes how the compiler is called. -/
theorem compiler_enduring (c : CompilerSettings) : Enduring fun w : Workplace => w.compiler = c where
  toStable := wraps.stable_rest fun _ _ h => h
  buildAndRun {w} source h := by
    have heq : Workshop.buildAndRun source w =
        onTree (buildAndRunBy (call w.env) w.compiler w.program source) w :=
      congrFun (buildAndRun_eq source) w
    rw [Ends, heq]
    exact onTree_keeps h
  appendLog {w} path tag text h := by
    have heq : Workshop.appendLog path tag text w =
        onTree (Journal.append path w.secs tag text) w := rfl
    rw [Ends, heq]
    exact onTree_keeps h

/-- A session in these surroundings calls the command first, each time that it calls the tools. -/
def Calls (w : Workplace) (command : Text) : Prop :=
  ∀ (keyboard : Keyboard) (s : Session (Observed Workplace)), s.buffer.store = { inner := w } →
    ∀ v ∈ w :: (final (Session.run keyboard s)).2.buffer.store.seen, ∀ source,
      (v.programsCalled source).head? = some command

theorem calls_command (w : Workplace) : w.Calls w.compiler.command := by
  intro keyboard s hs v hv source
  have hseen := Session.run_seen (compiler_enduring w.compiler) keyboard (s := s)
    (by rw [hs]) (by rw [hs])
  have hv : v.compiler = w.compiler := by
    obtain rfl | hv := List.mem_cons.mp hv
    · rfl
    · exact hseen v hv
  rw [head?_programsCalled, hv]

end Workplace

/-! ## The check -/

namespace Settings

variable {s : Settings}

theorem valid_of_check (h : s.check = .ok ()) : s.Valid := by
  cases hfault : s.fault? with
  | none => exact fault?_eq_none_iff.mp hfault
  | some fault => cases h.symm.trans (check_of_fault hfault)

/-- Settings that can be run with pass exactly if their command without blanks is found. -/
theorem preflight?_eq_none_iff (h : s.check = .ok ()) (t : FileTree) (searchPath : Option Text) :
    s.compiler.preflight? t searchPath = none ↔
      ∃ file, t.Finds searchPath (Text.trim s.compiler.command) file := by
  have hvalid := valid_of_check h
  have hcommand : (Text.trim s.compiler.command).isEmpty = false := by
    rw [List.isEmpty_eq_false_iff, ne_eq, Text.trim_eq_nil_iff, hvalid.command]
    exact Bool.false_ne_true
  simp only [← FileTree.findCommand_eq_some_iff, ← Option.isSome_iff_exists]
  unfold CompilerSettings.preflight?
  dsimp only
  rw [hcommand, hvalid.standard, if_neg Bool.false_ne_true, if_neg Bool.false_ne_true]
  split
  · rename_i hfound
    exact iff_of_true rfl hfound
  · rename_i hfound
    refine iff_of_false ?_ hfound
    split <;> exact nofun

/-- **What the check before a session vouches for.** Settings that can be run with pass it exactly if
their command without the blanks around it is found on the search path. The session calls the command
as it is, each time that it builds the program, and that is found as well if there are no blanks around
it. Otherwise it is not found where the check found it. -/
theorem preflight_vouches (h : s.check = .ok ()) (t : FileTree) (searchPath : Option Text)
    (i : Invocation) (tree : FileTree) (source : Path) :
    (i.workplace s tree source).Calls s.compiler.command ∧
    (s.compiler.preflight? t searchPath = none ↔
      ∃ file, t.Finds searchPath (Text.trim s.compiler.command) file) ∧
    (s.compiler.preflight? t searchPath = none → Text.trim s.compiler.command = s.compiler.command →
      ∃ file, t.findCommand s.compiler.command searchPath = some file) ∧
    ∀ file, t.Finds searchPath (Text.trim s.compiler.command) file →
      (t.findCommand s.compiler.command searchPath = some file ↔
        Text.trim s.compiler.command = s.compiler.command) := by
  have hpasses := preflight?_eq_none_iff h t searchPath
  refine ⟨Workplace.calls_command _, hpasses, fun hpass htrim => ?_, fun file hfile => ?_⟩
  · obtain ⟨file, hfile⟩ := hpasses.mp hpass
    rw [htrim] at hfile
    exact ⟨file, FileTree.findCommand_eq_some_iff.mpr hfile⟩
  · rw [FileTree.findCommand_eq_some_iff]
    constructor
    · intro hfound
      exact hfile.command_eq hfound (Text.mem_trim_iff (by decide))
    · intro htrim
      rwa [htrim] at hfile

/-- The default settings with another compiler. -/
def withCommand (command : Text) : Settings :=
  { session := (default "/home/me").session, compiler := { command } }

/-- Files with one program. -/
def oneProgram (name : Text) : FileTree :=
  ⟨[], [(["bin".toList], .directory), (["bin".toList, name], .file [] true)]⟩

/-- A start among these files without anything else. -/
def plainStart (name : Text) : Invocation where
  args := []
  env := ⟨[], "/"⟩
  tree := oneProgram name
  input := []

/-- One command is found and called; blanks around it pass the check, and what is called then is not
found where the check found it. -/
theorem preflight_vouches_blanks :
    (∃ file, (oneProgram "g++").findCommand "g++" (some "/usr/bin:/bin") = some file) ∧
    (withCommand " g++\t").compiler.preflight? (oneProgram "g++") (some "/usr/bin:/bin") = none ∧
    (oneProgram "g++").findCommand " g++\t" (some "/usr/bin:/bin") ≠ some "/bin/g++" := by
  have hfinds : (oneProgram "g++").Finds (some "/usr/bin:/bin") "g++" "/bin/g++" :=
    FileTree.findCommand_eq_some_iff.mp (by decide)
  obtain ⟨-, hpasses, hfound, -⟩ := preflight_vouches (s := withCommand "g++") (by decide)
    (oneProgram "g++") (some "/usr/bin:/bin") (plainStart "g++") (oneProgram "g++") "main.cpp"
  obtain ⟨-, hpasses', -, hplace⟩ := preflight_vouches (s := withCommand " g++\t") (by decide)
    (oneProgram "g++") (some "/usr/bin:/bin") (plainStart "g++") (oneProgram "g++") "main.cpp"
  exact ⟨hfound (hpasses.mpr ⟨_, hfinds⟩) (by decide), hpasses'.mpr ⟨_, hfinds⟩,
    fun h => absurd ((hplace _ hfinds).mp h) (by decide)⟩

/-- The check passes settings whose command has a blank behind it, and no file is found for what the
session calls. -/
theorem preflight_passes_unfound :
    ¬ ∀ (s : Settings) (t : FileTree) (searchPath : Option Text) (i : Invocation) (tree : FileTree)
      (source : Path), s.check = .ok () → s.compiler.preflight? t searchPath = none →
        ∀ command, ((i.workplace s tree source).programsCalled source).head? = some command →
          ∃ file, t.findCommand command searchPath = some file := by
  intro h
  obtain ⟨file, hfile⟩ := h (withCommand "g++ ") (oneProgram "g++") (some "/bin") (plainStart "g++")
    (oneProgram "g++") "main.cpp" (by decide) (by decide) "g++ "
    (Workplace.head?_programsCalled _ _)
  have hnone : (oneProgram "g++").findCommand "g++ " (some "/bin") = none := by decide
  cases hfile.symm.trans hnone

end Settings

end LineRepl
