import LineRepl.Proofs.HomePaths
import LineRepl.Settings.Load

/-! Where each setting comes from. One text counts, of the files that there are, and it is read or
refused for itself: no other file makes up for what it lacks. What it says of a setting is overruled by
the environment only, what nobody says is the default, and the directory of the session may begin at the
home directory. The settings are one family, so each of this is said once for all of them. -/
namespace LineRepl

theorem Text.nonBlank?_eq_some_iff {v t : Text} :
    nonBlank? v = some t ↔ v.allBlank = false ∧ t = trim v := by
  rw [← Bool.not_eq_true, ← trim_eq_nil_iff, nonBlank?]
  cases trim v with
  | nil => simp
  | cons c r => simp [eq_comm]

/-! ## The settings as a family -/

/-- The settings that a file can give. -/
inductive Setting
  | workdir | defaultFile | historySize | logFile | logOutput | skeleton
  | command | standard | extraArgs | timeoutSecs
  | colour
  deriving DecidableEq

namespace Setting

def Value : Setting → Type
  | workdir => Path
  | defaultFile | logFile | skeleton | command | standard => Text
  | historySize | timeoutSecs => Nat
  | logOutput | colour => Bool
  | extraArgs => List Text

/-- What settings have for this one. -/
def of (s : Settings) : (f : Setting) → f.Value
  | workdir => s.session.workdir
  | defaultFile => s.session.defaultFile
  | historySize => s.session.historySize
  | logFile => s.session.logFile
  | logOutput => s.session.logOutput
  | skeleton => s.session.skeleton
  | command => s.compiler.command
  | standard => s.compiler.standard
  | extraArgs => s.compiler.extraArgs
  | timeoutSecs => s.compiler.timeoutSecs
  | colour => s.colour

/-- The section of a file in which it stands. -/
def part : Setting → Text
  | workdir | defaultFile | historySize | logFile | logOutput | skeleton => "session"
  | command | standard | extraArgs | timeoutSecs => "compiler"
  | colour => "display"

/-- The names of the settings of its section, in their order. -/
def partFields : Setting → List String
  | workdir | defaultFile | historySize | logFile | logOutput | skeleton =>
    ["workdir", "default_file", "history_size", "log_file", "log_output", "skeleton"]
  | command | standard | extraArgs | timeoutSecs => ["command", "std", "extra_args", "timeout_secs"]
  | colour => ["color"]

/-- Its name in the section. -/
def field : Setting → Text
  | workdir => "workdir"
  | defaultFile => "default_file"
  | historySize => "history_size"
  | logFile => "log_file"
  | logOutput => "log_output"
  | skeleton => "skeleton"
  | command => "command"
  | standard => "std"
  | extraArgs => "extra_args"
  | timeoutSecs => "timeout_secs"
  | colour => "color"

/-- The variable of the environment that comes before the file. -/
def variableName? : Setting → Option Text
  | command => some "CREPPL_COMPILER"
  | standard => some "CREPPL_STD"
  | workdir => some "CREPPL_WORKDIR"
  | _ => none

/-- Reads a value of its type. -/
def read : (f : Setting) → Toml → Option f.Value
  | workdir => Toml.path?
  | defaultFile | logFile | skeleton | command | standard => Toml.text?
  | historySize | timeoutSecs => Toml.natural?
  | logOutput | colour => Toml.boolean?
  | extraArgs => Toml.texts?

/-- The fields of its section by name. A section that is missing has none. -/
def fields? (entries : Toml.Entries) (f : Setting) : Option (Text → Option Toml) :=
  Settings.reading (Toml.fields? (Settings.fieldNames f.partFields)) (fun _ => none)
    (entries.lookup f.part)

/-- What a document says of it, if anything. -/
def said (entries : Toml.Entries) (f : Setting) : Option Toml :=
  (f.fields? entries).bind fun get => get f.field

/-- The environment has more than blanks for it, and `t` is that without the blanks around it. -/
def Heard (src : SettingsSources) (f : Setting) (t : Text) : Prop :=
  ∃ name ∈ f.variableName?, ∃ v ∈ src.get? name, v.allBlank = false ∧ t = Text.trim v

/-- The value of a setting, from the first of the three that has one. -/
inductive Sourced (src : SettingsSources) (entries : Toml.Entries) (f : Setting) : f.Value → Prop
  | heard {t : Text} {x : f.Value} (h : f.Heard src t) (hx : f.read (.text t) = some x) :
      Sourced src entries f x
  | said {v : Toml} {x : f.Value} (h : ∀ t, ¬f.Heard src t) (hv : f.said entries = some v)
      (hx : f.read v = some x) : Sourced src entries f x
  | missing (h : ∀ t, ¬f.Heard src t) (hv : f.said entries = none) :
      Sourced src entries f (f.of (Settings.builtIn src))

variable {src : SettingsSources} {textOf : Path → Except IoError Text}
  {entries entries' : Toml.Entries} {f : Setting}

theorem Heard.unique {t t' : Text} (h : f.Heard src t) (h' : f.Heard src t') : t = t' := by
  obtain ⟨name, hname, v, hv, -, rfl⟩ := h
  obtain ⟨name', hname', v', hv', -, rfl⟩ := h'
  obtain rfl := Option.mem_unique hname hname'
  rw [Option.mem_unique hv hv']

/-- What documents say and the environment decide the value; the files are not asked again. -/
theorem Sourced.unique {x y : f.Value} (h : f.Sourced src entries x)
    (h' : f.Sourced { src with textOf } entries' y) (hsaid : f.said entries = f.said entries') :
    x = y := by
  cases h with
  | heard ht hx =>
    cases h' with
    | heard ht' hy =>
      obtain rfl := ht.unique ht'
      exact Option.some.inj (hx.symm.trans hy)
    | said hno => exact absurd ht (hno _)
    | missing hno => exact absurd ht (hno _)
  | said hno hv hx =>
    cases h' with
    | heard ht' => exact absurd ht' (hno _)
    | said _ hv' hy =>
      cases (hv.symm.trans hsaid).trans hv'
      exact Option.some.inj (hx.symm.trans hy)
    | missing _ hv' => cases (hv.symm.trans hsaid).trans hv'
  | missing hno hv =>
    cases h' with
    | heard ht' => exact absurd ht' (hno _)
    | said _ hv' => cases (hv.symm.trans hsaid).trans hv'
    | missing => rfl

theorem said_eq {get : Text → Option Toml} (h : f.fields? entries = some get) :
    f.said entries = get f.field := by
  rw [Setting.said, h, Option.bind_some]

/-- What the environment says comes instead of `x`; without it, `x` stays. -/
def Instead (src : SettingsSources) (f : Setting) (x y : f.Value) : Prop :=
  (∃ t, f.Heard src t ∧ f.read (.text t) = some y) ∨ (∀ t, ¬f.Heard src t) ∧ y = x

theorem Instead.of_name {x y : f.Value} {name : Text}
    (hname : f.variableName? = some name)
    (hset : ∀ t, src.nonBlank? name = some t → f.read (.text t) = some y)
    (hunset : src.nonBlank? name = none → y = x) : f.Instead src x y := by
  have hheard (t : Text) : f.Heard src t ↔ src.nonBlank? name = some t := by
    simp only [Heard, hname, Option.mem_def, Option.some.injEq, exists_eq_left',
      SettingsSources.nonBlank?, Option.bind_eq_some_iff, Text.nonBlank?_eq_some_iff]
  cases hn : src.nonBlank? name with
  | some t => exact .inl ⟨t, (hheard t).mpr hn, hset t hn⟩
  | none => exact .inr ⟨fun t ht => (by cases hn.symm.trans ((hheard t).mp ht)), hunset hn⟩

theorem Instead.of_no_name (hname : f.variableName? = none) (x : f.Value) :
    f.Instead src x x := by
  refine .inr ⟨?_, rfl⟩
  rintro t ⟨name, hmem, -⟩
  cases hname.symm.trans hmem

/-- Settings are what they have for each. -/
theorem eq_of_of {s s' : Settings} (h : ∀ f : Setting, f.of s = f.of s') : s = s' := by
  obtain ⟨⟨_, _, _, _, _, _⟩, ⟨_, _, _, _⟩, _⟩ := s
  obtain ⟨⟨_, _, _, _, _, _⟩, ⟨_, _, _, _⟩, _⟩ := s'
  cases h workdir
  cases h defaultFile
  cases h historySize
  cases h logFile
  cases h logOutput
  cases h skeleton
  cases h command
  cases h standard
  cases h extraArgs
  cases h timeoutSecs
  cases h colour
  rfl

/-- Any values make settings. -/
theorem exists_of (g : (f : Setting) → f.Value) : ∃ s : Settings, ∀ f : Setting, f.of s = g f :=
  ⟨{ session := ⟨g workdir, g defaultFile, g historySize, g logFile, g logOutput, g skeleton⟩
     compiler := ⟨g command, g standard, g extraArgs, g timeoutSecs⟩
     colour := g colour }, fun f => by cases f <;> rfl⟩

end Setting

/-! ## Reading a document -/

namespace Settings

/-- A document whose sections have fields, and in which what is said of a setting has its type. -/
structure Readable (entries : Toml.Entries) : Prop where
  parts (f : Setting) : (f.fields? entries).isSome = true
  values (f : Setting) (v : Toml) : f.said entries = some v → (f.read v).isSome = true

variable {src : SettingsSources} {textOf : Path → Except IoError Text}
  {entries entries' : Toml.Entries} {d s s' : Settings}

/-- A section is read by its fields; one that is missing is one without fields. -/
theorem reading_eq_some_iff {α : Type} (read : Toml → Option α) (missing : α) {names : List Text}
    {body : (Text → Option Toml) → Option α} {s : α}
    (hread : read = fun v => (v.fields? names).bind body)
    (hmissing : body (fun _ => none) = some missing) (v : Option Toml) :
    reading read missing v = some s ↔
      ∃ get, reading (Toml.fields? names) (fun _ => none) v = some get ∧ body get = some s := by
  cases v with
  | none => simp only [reading, Option.some.injEq, exists_eq_left', hmissing]
  | some v => rw [hread, reading, reading, Option.bind_eq_some_iff]

theorem session_eq_some_iff {d s : SessionSettings} :
    reading (readSession d) d (entries.lookup ("session" : Text)) = some s ↔
      ∃ get, Setting.workdir.fields? entries = some get ∧
        reading Toml.path? d.workdir (get "workdir") = some s.workdir ∧
        reading Toml.text? d.defaultFile (get "default_file") = some s.defaultFile ∧
        reading Toml.natural? d.historySize (get "history_size") = some s.historySize ∧
        reading Toml.text? d.logFile (get "log_file") = some s.logFile ∧
        reading Toml.boolean? d.logOutput (get "log_output") = some s.logOutput ∧
        reading Toml.text? d.skeleton (get "skeleton") = some s.skeleton := by
  obtain ⟨workdir, defaultFile, historySize, logFile, logOutput, skeleton⟩ := s
  refine (reading_eq_some_iff (readSession d) d rfl rfl _).trans
    (exists_congr fun get => and_congr Iff.rfl ?_)
  simp only [Option.bind_eq_bind, Option.bind_eq_some_iff]
  constructor
  · rintro ⟨_, h₁, _, h₂, _, h₃, _, h₄, _, h₅, _, h₆, ⟨⟩⟩
    exact ⟨h₁, h₂, h₃, h₄, h₅, h₆⟩
  · rintro ⟨h₁, h₂, h₃, h₄, h₅, h₆⟩
    exact ⟨_, h₁, _, h₂, _, h₃, _, h₄, _, h₅, _, h₆, rfl⟩

theorem compiler_eq_some_iff {d s : CompilerSettings} :
    reading (readCompiler d) d (entries.lookup ("compiler" : Text)) = some s ↔
      ∃ get, Setting.command.fields? entries = some get ∧
        reading Toml.text? d.command (get "command") = some s.command ∧
        reading Toml.text? d.standard (get "std") = some s.standard ∧
        reading Toml.texts? d.extraArgs (get "extra_args") = some s.extraArgs ∧
        reading Toml.natural? d.timeoutSecs (get "timeout_secs") = some s.timeoutSecs := by
  obtain ⟨command, standard, extraArgs, timeoutSecs⟩ := s
  refine (reading_eq_some_iff (readCompiler d) d rfl rfl _).trans
    (exists_congr fun get => and_congr Iff.rfl ?_)
  simp only [Option.bind_eq_bind, Option.bind_eq_some_iff]
  constructor
  · rintro ⟨_, h₁, _, h₂, _, h₃, _, h₄, ⟨⟩⟩
    exact ⟨h₁, h₂, h₃, h₄⟩
  · rintro ⟨h₁, h₂, h₃, h₄⟩
    exact ⟨_, h₁, _, h₂, _, h₃, _, h₄, rfl⟩

theorem colour_eq_some_iff {d b : Bool} :
    reading (readColour d) d (entries.lookup ("display" : Text)) = some b ↔
      ∃ get, Setting.colour.fields? entries = some get ∧
        reading Toml.boolean? d (get "color") = some b :=
  reading_eq_some_iff (readColour d) d rfl rfl _

/-- The settings of a document are those that it says, over the defaults. -/
theorem ofEntries_eq_some_iff :
    ofEntries d entries = some s ↔ (∀ f : Setting, (f.fields? entries).isSome = true) ∧
      ∀ f : Setting, reading f.read (f.of d) (f.said entries) = some (f.of s) := by
  have hsplit : ofEntries d entries = some s ↔
      reading (readSession d.session) d.session (entries.lookup ("session" : Text)) =
          some s.session ∧
        reading (readCompiler d.compiler) d.compiler (entries.lookup ("compiler" : Text)) =
          some s.compiler ∧
        reading (readColour d.colour) d.colour (entries.lookup ("display" : Text)) =
          some s.colour := by
    simp only [ofEntries, Option.bind_eq_bind, Option.bind_eq_some_iff]
    constructor
    · rintro ⟨_, h₁, _, h₂, _, h₃, ⟨⟩⟩
      exact ⟨h₁, h₂, h₃⟩
    · rintro ⟨h₁, h₂, h₃⟩
      exact ⟨_, h₁, _, h₂, _, h₃, rfl⟩
  rw [hsplit, session_eq_some_iff, compiler_eq_some_iff, colour_eq_some_iff]
  constructor
  · rintro ⟨⟨get, hget, h₁, h₂, h₃, h₄, h₅, h₆⟩, ⟨getC, hgetC, h₇, h₈, h₉, h₁₀⟩,
      ⟨getD, hgetD, h₁₁⟩⟩
    have hs {f : Setting} {g : Text → Option Toml} (hg : f.fields? entries = some g)
        (h : reading f.read (f.of d) (g f.field) = some (f.of s)) :
        (f.fields? entries).isSome = true ∧
          reading f.read (f.of d) (f.said entries) = some (f.of s) :=
      ⟨Option.isSome_of_eq_some hg, by rw [Setting.said_eq hg]; exact h⟩
    refine forall_and.mp fun f => ?_
    cases f with
    | workdir => exact hs hget h₁
    | defaultFile => exact hs hget h₂
    | historySize => exact hs hget h₃
    | logFile => exact hs hget h₄
    | logOutput => exact hs hget h₅
    | skeleton => exact hs hget h₆
    | command => exact hs hgetC h₇
    | standard => exact hs hgetC h₈
    | extraArgs => exact hs hgetC h₉
    | timeoutSecs => exact hs hgetC h₁₀
    | colour => exact hs hgetD h₁₁
  · rintro ⟨hparts, hvalues⟩
    obtain ⟨get, hget⟩ := Option.isSome_iff_exists.mp (hparts .workdir)
    obtain ⟨getC, hgetC⟩ := Option.isSome_iff_exists.mp (hparts .command)
    obtain ⟨getD, hgetD⟩ := Option.isSome_iff_exists.mp (hparts .colour)
    have hs (f : Setting) {g : Text → Option Toml} (hg : f.fields? entries = some g) :
        reading f.read (f.of d) (g f.field) = some (f.of s) := by
      rw [← Setting.said_eq hg]
      exact hvalues f
    exact ⟨⟨get, hget, hs .workdir hget, hs .defaultFile hget, hs .historySize hget,
        hs .logFile hget, hs .logOutput hget, hs .skeleton hget⟩,
      ⟨getC, hgetC, hs .command hgetC, hs .standard hgetC, hs .extraArgs hgetC,
        hs .timeoutSecs hgetC⟩,
      getD, hgetD, hs .colour hgetD⟩

theorem readable_iff_ofEntries : Readable entries ↔ ∃ s, ofEntries d entries = some s := by
  constructor
  · intro h
    have hread (f : Setting) : ∃ x, reading f.read (f.of d) (f.said entries) = some x := by
      cases hv : f.said entries with
      | none => exact ⟨_, rfl⟩
      | some v => exact Option.isSome_iff_exists.mp (h.values f v hv)
    obtain ⟨s, hs⟩ := Setting.exists_of fun f => (hread f).choose
    exact ⟨s, ofEntries_eq_some_iff.mpr
      ⟨h.parts, fun f => (hread f).choose_spec.trans (congrArg some (hs f).symm)⟩⟩
  · rintro ⟨s, hs⟩
    obtain ⟨hparts, hvalues⟩ := ofEntries_eq_some_iff.mp hs
    refine ⟨hparts, fun f v hv => ?_⟩
    have hf := hvalues f
    rw [hv] at hf
    exact Option.isSome_of_eq_some hf

/-! ## Under the environment -/

/-- The environment comes before the settings, for the three that have a variable. -/
theorem instead_override (src : SettingsSources) (s : Settings) (f : Setting) :
    f.Instead src (f.of s) (f.of (override src s)) := by
  -- `put` is what `override` makes of a variable; there it stands inside a record.
  cases f with
  | command =>
    let put (o : Option Text) : Text := o.getD s.compiler.command
    exact .of_name rfl (fun _ ht => congrArg (some ∘ put) ht.symm) (congrArg put)
  | standard =>
    let put (o : Option Text) : Text := o.getD s.compiler.standard
    exact .of_name rfl (fun _ ht => congrArg (some ∘ put) ht.symm) (congrArg put)
  | workdir =>
    let put (o : Option Text) : Path := (o.map Path.mk).getD s.session.workdir
    exact .of_name rfl (fun _ ht => congrArg (some ∘ put) ht.symm) (congrArg put)
  | defaultFile | historySize | logFile | logOutput | skeleton | extraArgs | timeoutSecs | colour =>
    exact .of_no_name rfl _

theorem sourced_override (h : ofEntries (builtIn src) entries = some s) (f : Setting) :
    f.Sourced src entries (f.of (override src s)) := by
  obtain ⟨t, ht, hread⟩ | ⟨hnone, hof⟩ := instead_override src s f
  · exact .heard ht hread
  · have hread := (ofEntries_eq_some_iff.mp h).2 f
    rw [hof]
    cases hv : f.said entries with
    | some v =>
      rw [hv] at hread
      exact .said hnone hv hread
    | none =>
      rw [hv] at hread
      rw [← Option.some.inj hread]
      exact .missing hnone hv

/-- A directory as it is said, and where it is with the home that is known. -/
structure Placed (home : Option Path) (p q : Path) : Prop where
  expanded : q = expandHome home p
  rooted (dir : Path) : home = some dir → p.first? = some ['~'] → Path.Rooted dir p q
  unchanged : home = none ∨ p.first? ≠ some ['~'] → q = p

theorem placed_expandHome (home : Option Path) (p : Path) : Placed home p (expandHome home p) where
  expanded := rfl
  rooted dir hdir hp := hdir ▸ rooted_expandHome hp dir
  unchanged h := h.elim (fun hnone => hnone ▸ expandHome_none p) fun hne => expandHome_of_ne hne home

/-- Settings in which every one has the value of its source, with the directory in its place. -/
structure Effective (src : SettingsSources) (entries : Toml.Entries) (s : Settings) : Prop where
  sourced (f : Setting) : f ≠ .workdir → f.Sourced src entries (f.of s)
  workdir : ∃ p : Path, Setting.workdir.Sourced src entries p ∧ Placed src.home p s.session.workdir

theorem Effective.of_eq (h : Effective src entries s) (h' : Effective { src with textOf } entries' s')
    {f : Setting} (hsaid : f.said entries = f.said entries') : f.of s = f.of s' := by
  by_cases hf : f = .workdir
  · subst hf
    obtain ⟨p, hp, hplace⟩ := h.workdir
    obtain ⟨p', hp', hplace'⟩ := h'.workdir
    obtain rfl : p = p' := hp.unique hp' hsaid
    exact hplace.expanded.trans hplace'.expanded.symm
  · exact (h.sourced f hf).unique (h'.sourced f hf) hsaid

theorem Effective.unique (h : Effective src entries s) (h' : Effective src entries s') : s = s' :=
  Setting.eq_of_of fun _ => h.of_eq h' rfl

/-- Readable text has settings of which each is from its source. -/
theorem ofText_of_readable (src : SettingsSources) {t : Text} (ht : src.parse t = some entries)
    (h : Readable entries) : ∃ s, Effective src entries s ∧ ofText src t = .ok s := by
  obtain ⟨s, hs⟩ := (readable_iff_ofEntries (d := builtIn src)).mp h
  refine ⟨{ override src s with
    session.workdir := expandHome src.home (override src s).session.workdir }, ⟨?_, ?_⟩, ?_⟩
  · intro f hf
    have hsourced := sourced_override hs f
    cases f with
    | workdir => exact absurd rfl hf
    | _ => exact hsourced
  · exact ⟨_, sourced_override hs .workdir, placed_expandHome _ _⟩
  · rw [ofText, ht, Option.bind_some, hs]

theorem ofText_of_not_readable {t : Text}
    (h : ∀ entries, src.parse t = some entries → ¬Readable entries) :
    ofText src t = .error .malformed := by
  have hnone : (src.parse t).bind (ofEntries (builtIn src)) = none :=
    Option.bind_eq_none_iff.mpr fun entries ht => Option.eq_none_iff_forall_ne_some.mpr fun s hs =>
      h entries ht (readable_iff_ofEntries.mpr ⟨s, hs⟩)
  rw [ofText, hnone]

/-! ## Settings to run with -/

/-- Settings that a session can run with. -/
structure Valid (s : Settings) : Prop where
  history : 1 ≤ s.session.historySize
  time : 1 ≤ s.compiler.timeoutSecs
  command : s.compiler.command.allBlank = false
  standard : s.compiler.standard.allBlank = false
  file : s.session.defaultFile.allBlank = false

theorem fault?_eq_none_iff : s.fault? = none ↔ s.Valid := by
  have hite {c : Prop} [Decidable c] (fault : SettingsFault) (o : Option SettingsFault) :
      (if c then some fault else o) = none ↔ ¬c ∧ o = none := by
    split <;> simp [*]
  simp only [fault?, hite, Bool.not_eq_true, and_true]
  constructor
  · rintro ⟨hhistory, htime, hcommand, hstandard, hfile⟩
    exact ⟨Nat.pos_of_ne_zero hhistory, Nat.pos_of_ne_zero htime, hcommand, hstandard, hfile⟩
  · intro h
    exact ⟨Nat.ne_of_gt h.history, Nat.ne_of_gt h.time, h.command, h.standard, h.file⟩

theorem check_of_fault {fault : SettingsFault} (h : s.fault? = some fault) :
    s.check = .error (.invalid fault.message) := by
  rw [check, h]

theorem check_of_valid (h : s.Valid) : s.check = .ok () := by
  rw [check, fault?_eq_none_iff.mpr h]

/-! ## The file that counts -/

/-- The text that counts and where it is from. -/
inductive Chosen (src : SettingsSources) : Option Path → Text → SettingsOrigin → Prop
  | explicit {p : Path} {t : Text} (h : src.textOf p = .ok t) : Chosen src (some p) t (.explicit p)
  | here {t : Text} (h : src.textOf fileName = .ok t) : Chosen src none t .here
  | user {p : Path} {e : IoError} {t : Text} (hhere : src.textOf fileName = .error e)
      (hp : userFile? src = some p) (h : src.textOf p = .ok t) : Chosen src none t (.user p)
  | builtIn {e : IoError} (hhere : src.textOf fileName = .error e)
      (h : ∀ p t, userFile? src = some p → src.textOf p ≠ .ok t) : Chosen src none [] .builtIn

theorem findText_of_chosen {explicit : Option Path} {t : Text} {origin : SettingsOrigin}
    (h : Chosen src explicit t origin) : findText src explicit = .ok (t, origin) := by
  cases h with
  | explicit h => rw [findText, h]
  | here h => rw [findText, h]
  | user hhere hp h => simp only [findText, hhere, hp, h]
  | builtIn hhere h =>
    cases hp : userFile? src with
    | none => simp only [findText, hhere, hp]
    | some p =>
      cases ht : src.textOf p with
      | ok t => exact absurd ht (h p t hp)
      | error e => simp only [findText, hhere, hp, ht]

/-- Some text counts, unless a file that was asked for cannot be read. -/
theorem exists_chosen (src : SettingsSources) (explicit : Option Path) :
    (∃ p e, explicit = some p ∧ src.textOf p = .error e) ∨
      ∃ t origin, Chosen src explicit t origin := by
  cases explicit with
  | some p =>
    cases hp : src.textOf p with
    | error e => exact .inl ⟨p, e, rfl, hp⟩
    | ok t => exact .inr ⟨t, _, .explicit hp⟩
  | none =>
    refine .inr ?_
    cases hhere : src.textOf fileName with
    | ok t => exact ⟨t, _, .here hhere⟩
    | error e =>
      by_cases huser : ∃ p t, userFile? src = some p ∧ src.textOf p = .ok t
      · obtain ⟨p, t, hp, ht⟩ := huser
        exact ⟨t, _, .user hhere hp ht⟩
      · exact ⟨[], _, .builtIn hhere fun p t hp ht => huser ⟨p, t, hp, ht⟩⟩

/-! ## Loading -/

/-- How loading ends. -/
inductive Loads (src : SettingsSources) (explicit : Option Path) :
    Except SettingsError LoadedSettings → Prop
  /-- A file that was asked for cannot be read. -/
  | unreadable {p : Path} {e : IoError} (hp : explicit = some p) (h : src.textOf p = .error e) :
      Loads src explicit (.error (.io e))
  /-- The text that counts is no document, or a setting in it has the wrong type. -/
  | malformed {t : Text} {origin : SettingsOrigin} (ht : Chosen src explicit t origin)
      (h : ∀ entries, src.parse t = some entries → ¬Readable entries) :
      Loads src explicit (.error .malformed)
  /-- The settings are unfit to run with. -/
  | refused {t : Text} {origin : SettingsOrigin} {entries : Toml.Entries} {s : Settings}
      {fault : SettingsFault} (ht : Chosen src explicit t origin)
      (hentries : src.parse t = some entries) (hread : Readable entries)
      (hs : Effective src entries s) (hfault : s.fault? = some fault) :
      Loads src explicit (.error (.invalid fault.message))
  | loaded {t : Text} {origin : SettingsOrigin} {entries : Toml.Entries} {s : Settings}
      (ht : Chosen src explicit t origin) (hentries : src.parse t = some entries)
      (hread : Readable entries) (hs : Effective src entries s) (hvalid : s.Valid) :
      Loads src explicit (.ok ⟨s, origin⟩)

/-- The text that counts decides, whatever other files there are. -/
theorem loadFrom_of_chosen {explicit : Option Path} {t : Text} {origin : SettingsOrigin}
    (ht : Chosen src explicit t origin) : loadFrom src explicit =
      (ofText src t).bind fun s => s.check.map fun _ => ⟨s, origin⟩ := by
  rw [loadFrom, findText_of_chosen ht]
  refine congrArg (ofText src t).bind (funext fun s => ?_)
  cases s.check <;> rfl

theorem loadFrom_of_effective {explicit : Option Path} {t : Text} {origin : SettingsOrigin}
    (ht : Chosen src explicit t origin) (hentries : src.parse t = some entries)
    (hread : Readable entries) (hs : Effective src entries s) :
    loadFrom src explicit = s.check.map fun _ => ⟨s, origin⟩ := by
  obtain ⟨s', hs', htext⟩ := ofText_of_readable src hentries hread
  rw [loadFrom_of_chosen ht, htext, hs.unique hs']
  rfl

example : (loadFrom
    { textOf := fun p => if p = fileName then .ok "session.workdir = '~/code'" else .error .notUtf8
      get? := fun name => if name = "CREPPL_STD" then some " c++20 " else none
      root := none
      home := some "/home/me"
      parse := Toml.entries? } none).map (fun l => (l.settings, l.origin)) =
    .ok ({ session := { workdir := "/home/me/code" }, compiler := { standard := "c++20" } }, .here) := by
  decide +kernel

end Settings
end LineRepl
