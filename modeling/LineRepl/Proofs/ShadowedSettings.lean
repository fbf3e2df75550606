import LineRepl.Proofs.Precedence
import LineRepl.Startup.Program

/-! Settings that the command line gives. Whatever files say of them, a start comes to the same
settings, and it comes to them when a session can run with them. One thing stands in the way: settings
are checked before the command line is heard, so blank text in a file is refused although it is
shadowed. -/
namespace LineRepl

/-! ## Blank settings -/

namespace Setting

variable {src : SettingsSources} {entries : Toml.Entries} {f : Setting}

/-- Blank text, for a setting that must have more. -/
def Blank : (f : Setting) → f.Value → Prop
  | command, t | standard, t | defaultFile, t => Text.allBlank t = true
  | _, _ => False

/-- The document has blank text for it, and the environment nothing better. -/
def BlankIn (src : SettingsSources) (entries : Toml.Entries) (f : Setting) : Prop :=
  (∀ t, ¬f.Heard src t) ∧ ∃ v ∈ f.said entries, ∃ x ∈ f.read v, f.Blank x

theorem Sourced.blank_iff {x : f.Value} (h : f.Sourced src entries x) :
    f.Blank x ↔ f.BlankIn src entries := by
  cases h with
  | heard ht hx =>
    refine iff_of_false (fun hblank => ?_) fun h => h.1 _ ht
    obtain ⟨name, hname, v, hv, hsolid, rfl⟩ := ht
    cases f with
    | command | standard =>
      obtain rfl := Option.some.inj hx
      change Text.allBlank (Text.trim v) = true at hblank
      rw [Text.allBlank_trim, hsolid] at hblank
      cases hblank
    | defaultFile => cases hname
    | _ => exact hblank
  | said hno hv hx =>
    constructor
    · exact fun hx' => ⟨hno, _, hv, _, hx, hx'⟩
    · rintro ⟨-, v, hv', x, hx', hblank⟩
      obtain rfl := Option.mem_unique hv hv'
      obtain rfl := Option.mem_unique hx hx'
      exact hblank
  | missing hno hv =>
    constructor
    · intro hblank
      cases f <;> cases hblank
    · rintro ⟨-, v, hv', -⟩
      cases hv.symm.trans hv'

end Setting

theorem SettingsFault.message_injective : Function.Injective SettingsFault.message := by
  intro f g h
  cases f <;> cases g <;> first | rfl | exact absurd h (by decide)

namespace Settings

variable {src : SettingsSources} {entries : Toml.Entries} {s s' : Settings}

theorem valid_iff : s.Valid ↔ 1 ≤ s.session.historySize ∧ 1 ≤ s.compiler.timeoutSecs ∧
    ∀ f : Setting, ¬f.Blank (f.of s) := by
  constructor
  · intro h
    refine ⟨h.history, h.time, fun f hf => ?_⟩
    cases f with
    | command => exact absurd hf (Bool.eq_false_iff.mp h.command)
    | standard => exact absurd hf (Bool.eq_false_iff.mp h.standard)
    | defaultFile => exact absurd hf (Bool.eq_false_iff.mp h.file)
    | _ => exact hf
  · rintro ⟨hhistory, htime, hblank⟩
    exact ⟨hhistory, htime, Bool.eq_false_iff.mpr (hblank .command),
      Bool.eq_false_iff.mpr (hblank .standard), Bool.eq_false_iff.mpr (hblank .defaultFile)⟩

/-- Whether the standard is blank does not matter where the command is. -/
theorem check_congr (hhistory : s.session.historySize = s'.session.historySize)
    (htime : s.compiler.timeoutSecs = s'.compiler.timeoutSecs)
    (hfile : s.session.defaultFile = s'.session.defaultFile)
    (hcommand : Setting.command.Blank s.compiler.command ↔ Setting.command.Blank s'.compiler.command)
    (hstandard : ¬Setting.command.Blank s.compiler.command →
      (Setting.standard.Blank s.compiler.standard ↔ Setting.standard.Blank s'.compiler.standard)) :
    s.check = s'.check := by
  have hcommand' : s.compiler.command.allBlank = s'.compiler.command.allBlank :=
    Bool.eq_iff_iff.mpr hcommand
  unfold check fault?
  rw [hhistory, htime, hfile, ← hcommand']
  by_cases hc : s.compiler.command.allBlank = true
  · rw [if_pos hc, if_pos hc]
  · rw [show s.compiler.standard.allBlank = s'.compiler.standard.allBlank from
      Bool.eq_iff_iff.mpr (hstandard hc)]

theorem Effective.blank_iff (h : Effective src entries s) (f : Setting) :
    f.Blank (f.of s) ↔ f.BlankIn src entries := by
  by_cases hf : f = .workdir
  · subst hf
    exact iff_of_false id fun ⟨_, _, _, _, _, hblank⟩ => hblank
  · exact (h.sourced f hf).blank_iff

/-- The document of the text that counts. -/
def Counts (src : SettingsSources) (explicit : Option Path) (entries : Toml.Entries) : Prop :=
  ∃ t origin, Chosen src explicit t origin ∧ src.parse t = some entries ∧ Readable entries

end Settings

/-! ## Over the command line -/

namespace Options

open Settings

variable {o : Options} {src : SettingsSources} {textOf : Path → Except IoError Text}
  {entries entries' : Toml.Entries} {a a' : Settings}

/-- Whether the command line decides a setting. -/
def gives (o : Options) : Setting → Bool
  | .command => o.compiler.isSome
  | .standard => o.standard.isSome
  | .workdir => o.workdir.isSome
  | .colour => o.noColour
  | _ => false

theorem of_override_of_gives {f : Setting} (h : o.gives f = true) (a a' : Settings) :
    f.of (o.override a) = f.of (o.override a') := by
  have hgetD {α : Type} {x : Option α} (hx : x.isSome = true) (y z : α) : x.getD y = x.getD z := by
    obtain ⟨c, rfl⟩ := Option.isSome_iff_exists.mp hx
    rfl
  cases f with
  | command => exact hgetD h a.compiler.command a'.compiler.command
  | standard => exact hgetD h a.compiler.standard a'.compiler.standard
  | workdir => exact hgetD (by rw [Option.isSome_map]; exact h) a.session.workdir a'.session.workdir
  | colour =>
    change (a.colour && !o.noColour) = (a'.colour && !o.noColour)
    rw [show o.noColour = true from h, Bool.not_true, Bool.and_false, Bool.and_false]
  | _ => cases h

theorem of_override_of_not_gives {f : Setting} (h : o.gives f = false) (a : Settings) :
    f.of (o.override a) = f.of a := by
  have hgetD {α : Type} {x : Option α} (hx : x.isSome = false) (y : α) : x.getD y = y := by
    rw [Option.not_isSome_iff_eq_none.mp (Bool.eq_false_iff.mp hx), Option.getD_none]
  cases f with
  | command => exact hgetD h a.compiler.command
  | standard => exact hgetD h a.compiler.standard
  | workdir => exact hgetD (by rw [Option.isSome_map]; exact h) a.session.workdir
  | colour =>
    change (a.colour && !o.noColour) = a.colour
    rw [show o.noColour = false from h, Bool.not_false, Bool.and_true]
  | _ => rfl

/-- What a start is refused for although it is shadowed: blank text in the document for the compiler
command, or else for the standard. -/
inductive Refusal (o : Options) (src : SettingsSources) (entries : Toml.Entries) :
    SettingsFault → Prop
  | command (hgives : o.gives .command = true) (h : Setting.command.BlankIn src entries) :
      Refusal o src entries .noCompiler
  | standard (hcommand : ¬Setting.command.BlankIn src entries) (hgives : o.gives .standard = true)
      (h : Setting.standard.BlankIn src entries) : Refusal o src entries .noStandard

/-- How a start comes to its settings, which are `s` after all that overrides. -/
structure Settles (o : Options) (src : SettingsSources) (entries : Toml.Entries) (s : Settings) :
    Prop where
  overridden : ∃ a, Effective src entries a ∧ o.override a = s
  ok (x : Settings) :
    o.settle src = .ok x ↔ x = s ∧ s.Valid ∧ ∀ fault, ¬o.Refusal src entries fault
  refused {fault : SettingsFault} : s.Valid → o.Refusal src entries fault →
    o.settle src = .error (.invalid fault.message)

/-- Before the command line is heard, only what it shadows is in the way of valid settings. -/
theorem fault?_eq_some_iff (h : Effective src entries a) (hvalid : (o.override a).Valid)
    (fault : SettingsFault) : a.fault? = some fault ↔ o.Refusal src entries fault := by
  have hgives {f : Setting} (hf : f.Blank (f.of a)) : o.gives f = true := by
    cases hg : o.gives f with
    | true => rfl
    | false =>
      rw [← of_override_of_not_gives hg] at hf
      exact absurd hf ((valid_iff.mp hvalid).2.2 f)
  have hhistory : 1 ≤ a.session.historySize := hvalid.history
  have htime : 1 ≤ a.compiler.timeoutSecs := hvalid.time
  have hfile : a.session.defaultFile.allBlank = false := hvalid.file
  rw [fault?, if_neg (Nat.ne_of_gt hhistory), if_neg (Nat.ne_of_gt htime)]
  by_cases hcommand : a.compiler.command.allBlank = true
  · have hin := (h.blank_iff .command).mp hcommand
    rw [if_pos hcommand]
    constructor
    · rintro ⟨⟩
      exact .command (hgives (f := .command) hcommand) hin
    · rintro (_ | hno)
      · rfl
      · exact absurd hin hno
  · have hno : ¬Setting.command.BlankIn src entries := mt (h.blank_iff .command).mpr hcommand
    rw [if_neg hcommand]
    by_cases hstandard : a.compiler.standard.allBlank = true
    · rw [if_pos hstandard]
      constructor
      · rintro ⟨⟩
        exact .standard hno (hgives (f := .standard) hstandard)
          ((h.blank_iff .standard).mp hstandard)
      · rintro (⟨-, hin⟩ | -)
        · exact absurd hin hno
        · rfl
    · rw [if_neg hstandard, if_neg (Bool.eq_false_iff.mp hfile)]
      refine iff_of_false (Option.some_ne_none fault).symm ?_
      rintro (⟨-, hin⟩ | ⟨-, -, hin⟩)
      · exact hno hin
      · exact hstandard ((h.blank_iff .standard).mpr hin)

/-- Settings are checked before and after the command line is heard. -/
theorem settle_of_counts (h : Counts src (o.config.map Path.mk) entries) :
    ∃ a, Effective src entries a ∧ o.settle src =
      a.check.bind fun _ => (o.override a).check.map fun _ => o.override a := by
  obtain ⟨t, origin, ht, hentries, hread⟩ := h
  obtain ⟨a, ha, -⟩ := ofText_of_readable src hentries hread
  refine ⟨a, ha, ?_⟩
  rw [settle, loadFrom_of_effective ht hentries hread ha]
  cases a.check with
  | error e => rfl
  | ok _ =>
    change (o.override a).check.bind _ = (o.override a).check.map _
    cases (o.override a).check <;> rfl

theorem settles_of_effective (ha : Effective src entries a)
    (hsettle : o.settle src = a.check.bind fun _ => (o.override a).check.map fun _ => o.override a) :
    o.Settles src entries (o.override a) where
  overridden := ⟨a, ha, rfl⟩
  ok x := by
    rw [hsettle]
    by_cases hvalid : (o.override a).Valid
    · rw [check_of_valid hvalid]
      cases hfault : a.fault? with
      | none =>
        have hno (fault : SettingsFault) : ¬o.Refusal src entries fault := fun h => by
          cases hfault.symm.trans ((fault?_eq_some_iff ha hvalid fault).mpr h)
        rw [check_of_valid (fault?_eq_none_iff.mp hfault)]
        exact ⟨fun h => ⟨(Except.ok.inj h).symm, hvalid, hno⟩, fun h => h.1 ▸ rfl⟩
      | some fault =>
        rw [check_of_fault hfault]
        exact iff_of_false nofun fun h =>
          h.2.2 fault ((fault?_eq_some_iff ha hvalid fault).mp hfault)
    · cases hfault : (o.override a).fault? with
      | none => exact absurd (fault?_eq_none_iff.mp hfault) hvalid
      | some fault =>
        rw [check_of_fault hfault]
        cases a.check <;> exact iff_of_false nofun fun h => hvalid h.2.1
  refused hvalid h := by
    rw [hsettle, check_of_fault ((fault?_eq_some_iff ha hvalid _).mpr h)]
    rfl

/-- The settings after the command line depend only on what it does not give. -/
theorem override_eq (h : Effective src entries a) (h' : Effective { src with textOf } entries' a')
    (hsame : ∀ f, o.gives f = false → f.said entries = f.said entries') :
    o.override a = o.override a' := by
  refine Setting.eq_of_of fun f => ?_
  cases hg : o.gives f with
  | true => exact of_override_of_gives hg a a'
  | false =>
    rw [of_override_of_not_gives hg, of_override_of_not_gives hg]
    exact h.of_eq h' (hsame f hg)

theorem refusal_noCompiler_iff : o.Refusal src entries .noCompiler ↔
    o.gives .command = true ∧ Setting.command.BlankIn src entries :=
  ⟨fun | .command hgives h => ⟨hgives, h⟩, fun ⟨hgives, h⟩ => .command hgives h⟩

theorem refusal_noStandard_iff : o.Refusal src entries .noStandard ↔
    ¬Setting.command.BlankIn src entries ∧ o.gives .standard = true ∧
      Setting.standard.BlankIn src entries :=
  ⟨fun | .standard hcommand hgives h => ⟨hcommand, hgives, h⟩,
    fun ⟨hcommand, hgives, h⟩ => .standard hcommand hgives h⟩

theorem check_eq (h : Effective src entries a) (h' : Effective { src with textOf } entries' a')
    (hsame : ∀ f, o.gives f = false → f.said entries = f.said entries')
    (hrefusal : ∀ fault, o.Refusal src entries fault ↔ o.Refusal { src with textOf } entries' fault) :
    a.check = a'.check := by
  have hcommand : Setting.command.Blank a.compiler.command ↔
      Setting.command.Blank a'.compiler.command := by
    cases hg : o.gives .command with
    | false => rw [show a.compiler.command = a'.compiler.command from h.of_eq h' (hsame .command hg)]
    | true =>
      have hin := hrefusal .noCompiler
      simp only [refusal_noCompiler_iff, hg, true_and] at hin
      exact (h.blank_iff .command).trans (hin.trans (h'.blank_iff .command).symm)
  refine check_congr (h.of_eq h' (hsame .historySize rfl)) (h.of_eq h' (hsame .timeoutSecs rfl))
    (h.of_eq h' (hsame .defaultFile rfl)) hcommand fun hno => ?_
  cases hg : o.gives .standard with
  | false =>
    rw [show a.compiler.standard = a'.compiler.standard from h.of_eq h' (hsame .standard hg)]
  | true =>
    have hin := hrefusal .noStandard
    simp only [refusal_noStandard_iff, hg, true_and, mt (h.blank_iff .command).mpr hno,
      mt (h'.blank_iff .command).mpr (mt hcommand.mpr hno), not_false_eq_true] at hin
    exact (h.blank_iff .standard).trans (hin.trans (h'.blank_iff .standard).symm)

/-- A refusal can be told from the outcome. -/
theorem Settles.refusal_iff {s : Settings} (h : o.Settles src entries s) (hvalid : s.Valid)
    (fault : SettingsFault) :
    o.Refusal src entries fault ↔ o.settle src = .error (.invalid fault.message) := by
  refine ⟨h.refused hvalid, fun heq => ?_⟩
  by_cases hno : ∀ fault', ¬o.Refusal src entries fault'
  · cases heq.symm.trans ((h.ok s).mpr ⟨rfl, hvalid, hno⟩)
  · obtain ⟨fault', hfault'⟩ := not_forall_not.mp hno
    have hmessage : fault.message = fault'.message :=
      SettingsError.invalid.inj (Except.error.inj (heq.symm.trans (h.refused hvalid hfault')))
    rw [SettingsFault.message_injective hmessage]
    exact hfault'

/-- Files that differ in what the command line gives lead to the same settings. A start comes to
them exactly when they are valid and nothing blank is refused, and files that do not differ in what
is refused make no difference at all. -/
theorem settle_shadowed (h : Counts src (o.config.map Path.mk) entries)
    (h' : Counts { src with textOf } (o.config.map Path.mk) entries')
    (hsame : ∀ f, o.gives f = false → f.said entries = f.said entries') :
    ∃ s, o.Settles src entries s ∧ o.Settles { src with textOf } entries' s ∧
      ((∀ fault, o.Refusal src entries fault ↔ o.Refusal { src with textOf } entries' fault) →
        o.settle src = o.settle { src with textOf }) ∧
      (s.Valid → o.settle src = o.settle { src with textOf } →
        ∀ fault, o.Refusal src entries fault ↔ o.Refusal { src with textOf } entries' fault) := by
  obtain ⟨a, ha, hsettle⟩ := settle_of_counts h
  obtain ⟨a', ha', hsettle'⟩ := settle_of_counts h'
  have hover := override_eq ha ha' hsame
  have hsettles := settles_of_effective ha hsettle
  have hsettles' := settles_of_effective ha' hsettle'
  rw [← hover] at hsettles'
  refine ⟨o.override a, hsettles, hsettles', fun hrefusal => ?_, fun hvalid heq fault => ?_⟩
  · rw [hsettle, hsettle', hover, check_eq ha ha' hsame hrefusal]
  · rw [hsettles.refusal_iff hvalid, heq, hsettles'.refusal_iff hvalid]

/-! ### One file in the current directory -/

/-- A settings file in the current directory, where the environment has no variables. -/
def oneFile (t : Text) : SettingsSources where
  textOf p := if p = fileName then .ok t else .error (.os .noEntry)
  get? _ := none
  root := none
  home := some "/home/me"
  parse := Toml.entries?

/-- A settings file that names the compiler only. -/
def commandFile (t : Text) : Text := "[compiler]\ncommand = \"" ++ t ++ "\"\n"

def commandDocument (t : Text) : Toml.Entries := [("compiler", .table {} [("command", .text t)])]

def everyOption : Options where
  compiler := some "./cc"
  standard := some "c++17"
  workdir := some "w"

theorem counts_commandFile {t : Text}
    (h : Toml.entries? (commandFile t) = some (commandDocument t)) :
    Counts (oneFile (commandFile t)) none (commandDocument t) :=
  ⟨_, .here, .here rfl, h, (readable_iff_ofEntries (d := Settings.default "/")).mpr ⟨_, rfl⟩⟩

theorem said_commandDocument (t t' : Text) {f : Setting} (hf : everyOption.gives f = false) :
    f.said (commandDocument t) = f.said (commandDocument t') := by
  cases f with
  | command | standard | workdir => cases hf
  | _ => rfl

theorem settle_shadowed_commands :
    (∃ s, everyOption.Settles (oneFile (commandFile "cc")) (commandDocument "cc") s ∧
      everyOption.Settles (oneFile (commandFile "g++-13")) (commandDocument "g++-13") s) ∧
    everyOption.settle (oneFile (commandFile "cc")) =
      everyOption.settle (oneFile (commandFile "g++-13")) := by
  let s : Settings := everyOption.override (builtIn (oneFile []))
  have hok : everyOption.settle (oneFile (commandFile "cc")) = .ok s := by decide +kernel
  have hok' : everyOption.settle (oneFile (commandFile "g++-13")) = .ok s := by decide +kernel
  obtain ⟨s, hs, hs', hsame, -⟩ := settle_shadowed (counts_commandFile (t := "cc") rfl)
    (counts_commandFile (t := "g++-13") rfl) fun _ => said_commandDocument _ _
  exact ⟨⟨s, hs, hs'⟩, hsame fun fault =>
    iff_of_false (((hs.ok _).mp hok).2.2 fault) (((hs'.ok _).mp hok').2.2 fault)⟩

/-- The command line gives a compiler, and yet the blank one of the file is refused. -/
theorem settle_refuses_shadowed :
    Counts (oneFile (commandFile "cc")) none (commandDocument "cc") ∧
    Counts (oneFile (commandFile [])) none (commandDocument []) ∧
    (∀ f, everyOption.gives f = false →
      f.said (commandDocument "cc") = f.said (commandDocument [])) ∧
    (everyOption.override (builtIn (oneFile []))).Valid ∧
    everyOption.settle (oneFile (commandFile "cc")) =
      .ok (everyOption.override (builtIn (oneFile []))) ∧
    everyOption.settle (oneFile (commandFile [])) =
      .error (.invalid "compiler.command must not be empty") :=
  ⟨counts_commandFile rfl, counts_commandFile rfl, fun _ => said_commandDocument _ _,
    fault?_eq_none_iff.mp (by decide +kernel), by decide +kernel, by decide +kernel⟩

end Options
end LineRepl
