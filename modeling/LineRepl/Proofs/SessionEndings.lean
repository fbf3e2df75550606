import LineRepl.Proofs.SessionInvariants
import LineRepl.Proofs.TerminalFailures

/-! How sessions end. Failures of the store, of the tools and of the log are shown, and the session goes
on. So it comes to its last commit, unless showing something fails or the mode of the terminal cannot
be switched. What happened before is told line by line: a line commits a text or it commits none. What
the tools are to find after a commit is decided by the buffer alone, the text written and the program
closed, or nothing at all if that fails; and just this the tools have found, once for each commit and in
this order. -/
namespace LineRepl

open Attempt

namespace Session

/-- A text that is committed, and the buffer that it is committed to. -/
structure Commit (ω : Type) where
  text : Text
  buffer : Buffer (Observed ω)

variable {ω α β : Type}

/-- The surroundings in which the tools should be called: those with the line written and the program
closed. There are none when either fails. -/
def Commit.found? [TextStore (Observed ω)] (c : Commit ω) : Option ω :=
  match Buffer.write (c.text ++ ['\n']) c.buffer with
  | .error .. => none
  | .ok _ b => match Buffer.reseal b with
    | .error .. => none
    | .ok _ b => some b.store.inner

/-! ## Ways through a session -/

/-- From `s` to `s'` this is what the tools found, call by call, and nothing that was to be shown was
lost on the way. -/
structure Leads (found : List ω) (s s' : Session (Observed ω)) : Prop where
  seen : s'.buffer.store.seen = s.buffer.store.seen ++ found
  output : s'.output.failed = s.output.failed

/-- Something could not be shown. -/
structure Breaks (s : Session (Observed ω)) (e : SessionError) (s' : Session (Observed ω)) :
    Prop where
  output : s.output.failed < s'.output.failed
  error : ∃ io, e = .output io

section Ways

variable {found found' : List ω} {s s₁ s' : Session (Observed ω)} {e : SessionError}

theorem Leads.trans (h : Leads found s s₁) (h' : Leads found' s₁ s') :
    Leads (found ++ found') s s' := by
  refine ⟨?_, h'.output.trans h.output⟩
  rw [h'.seen, h.seen, List.append_assoc]

theorem Leads.quietly (h : Leads found s s₁) (h' : Leads [] s₁ s') : Leads found s s' :=
  List.append_nil found ▸ h.trans h'

theorem Leads.breaks (h : Leads found s s₁) (h' : Breaks s₁ e s') : Breaks s e s' :=
  ⟨h.output ▸ h'.output, h'.error⟩

/-- What is done to the buffer alone, without a call of the tools. -/
theorem leads_buffer {b : Buffer (Observed ω)} (h : b.store.seen = s.buffer.store.seen) :
    Leads [] s { s with buffer := b } :=
  ⟨h.trans (List.append_nil _).symm, rfl⟩

end Ways

/-- From every session, an action leads on without a call of the tools, or breaks off. -/
def Quiet (act : Action (Observed ω) α) : Prop :=
  ∀ s, Ends act s (fun _ s' => Leads [] s s') (Breaks s)

theorem Quiet.after {act : Action (Observed ω) α} (hq : Quiet act) {found : List ω}
    {s s₁ : Session (Observed ω)} (h : Leads found s s₁) :
    Ends act s₁ (fun _ s' => Leads found s s') (Breaks s) :=
  (hq s₁).mono (fun _ _ => h.quietly) fun _ _ => h.breaks

theorem display_quiet (text : Text) : Quiet (display text : Action (Observed ω) Unit) := by
  intro s
  refine (display_ends text s).mono ?_ ?_
  · intro _ _ hend
    obtain ⟨output, hp, rfl⟩ := hend
    exact ⟨(List.append_nil _).symm, (Sink.print_ends text s.output).ok_of hp⟩
  · intro _ _ hend
    obtain ⟨io, output, hp, rfl, rfl⟩ := hend
    exact ⟨(Sink.print_ends text s.output).error_of hp, io, rfl⟩

variable [Workshop ω]

theorem telling_quiet : Telling (ω := Observed ω) Quiet where
  pure _ _ := leads_buffer rfl
  bind hx hf s := (hx s).bind (fun a _ h => (hf a).after h) fun _ _ => id
  present _ s := display_quiet _ s
  appendLog tag text s := by
    refine (appendLog_ends (K := fun w => w.seen = s.buffer.store.seen) rfl
      fun _ _ => Observed.pass_seen rfl).mono ?_ fun _ _ => False.elim
    intro _ _ hend
    obtain ⟨store, hw, rfl⟩ := hend
    exact leads_buffer hw

/-! ## Commits -/

/-- The tools are called once, and find the store as it is. -/
theorem callTools_leads (s : Session (Observed ω)) :
    Ends callTools s (fun _ s' => Leads [s.buffer.store.inner] s s') (Breaks s) := by
  have hs : Ends (Workshop.buildAndRun s.options.source) s.buffer.store
      (fun _ w => w.seen = s.buffer.store.seen ++ [s.buffer.store.inner])
      fun _ w => w.seen = s.buffer.store.seen ++ [s.buffer.store.inner] :=
    Observed.pass_seen (w := { s.buffer.store with seen := _ }) rfl
  refine (callTools_ends hs).mono ?_ fun _ _ => False.elim
  intro _ _ hend
  obtain ⟨store, hw, rfl⟩ := hend
  exact ⟨hw, rfl⟩

theorem build_leads (s : Session (Observed ω)) :
    Ends build s (fun _ s' => Leads [s.buffer.store.inner] s s') (Breaks s) := by
  refine (callTools_leads s).bind (fun answer s₁ h => ?_) fun _ _ => id
  cases answer with
  | ok r => exact Quiet.after (telling_quiet.report r) h
  | error e => exact Quiet.after (telling_quiet.present _) h

theorem enter_seen (text : Text) (b : Buffer (Observed ω)) :
    Ends (enter text) b (fun _ b' => b'.store.seen = b.store.seen)
      (fun _ b' => b'.store.seen = b.store.seen) :=
  enter_preserves (Observed.stable b.store.seen) text b rfl

theorem Commit.found?_eq (c : Commit ω) : c.found? = match enter c.text c.buffer with
    | .ok _ b => some b.store.inner
    | .error .. => none := by
  simp only [found?, enter, bind_apply]
  cases Buffer.write (c.text ++ ['\n']) c.buffer with
  | ok _ b =>
    dsimp only
    cases Buffer.reseal b <;> rfl
  | error e b => rfl

/-- A commit calls the tools once on the store that it left, if it could write and close, and else
not at all. -/
theorem commit_leads (text : Text) (s : Session (Observed ω)) :
    Ends (commit text) s (fun _ s' => Leads (Commit.found? ⟨text, s.buffer⟩).toList s s')
      (Breaks s) := by
  have hs := enter_seen text s.buffer
  rw [Ends, commit_apply, Commit.found?_eq]
  cases hr : enter text s.buffer with
  | ok _ b =>
    have hb : Leads [] s { s with buffer := b } := leads_buffer (hs.ok_of hr)
    exact (build_leads _).mono (fun _ _ => hb.trans) fun _ _ => hb.breaks
  | error e b =>
    exact Quiet.after (telling_quiet.present _) (leads_buffer (hs.error_of hr))

/-- The last commit is one commit of an empty line. -/
theorem finalize_ends (s : Session (Observed ω)) :
    Ends finalize s
      (fun _ s' => ∃ s₁, commit [] s = .ok () s₁ ∧ s' = { s₁ with output := s'.output })
      (Breaks s) := by
  refine (commit_leads [] s).ran.bind ?_ fun _ _ => id
  intro _ s₁ hend
  obtain ⟨hc, h⟩ := hend
  refine ((display_ends ['\n'] s₁).both (display_quiet ['\n'] s₁)).mono ?_ fun _ _ he =>
    h.breaks he.2
  intro _ _ hend
  obtain ⟨⟨output, -, rfl⟩, -⟩ := hend
  exact ⟨s₁, hc, rfl⟩

/-! ## Lines -/

/-- A line is applied to the buffer, which is `b` then, and asks for no commit. -/
def Aside (line : Text) (s : Session (Observed ω)) (b : Buffer (Observed ω)) : Prop :=
  (∃ e, Buffer.runLine s.options.skeleton line s.buffer = .error e b) ∨
    ∃ a, Buffer.runLine s.options.skeleton line s.buffer = .ok a b ∧ a.committed? = none

/-- A line that lets the session go on, with the commit that it makes, if it makes one. Besides that
it changes what it changes of the buffer, and what is on the screen. -/
inductive Handles (line : Text) (s : Session (Observed ω)) :
    List (Commit ω) → Session (Observed ω) → Prop
  | aside {b : Buffer (Observed ω)} {output : Sink} (hline : Aside line s b) :
      Handles line s [] { s with buffer := b, output }
  | commit {text : Text} {b : Buffer (Observed ω)} {s' : Session (Observed ω)}
      (hline : Buffer.runLine s.options.skeleton line s.buffer = .ok (.commit text) b)
      (h : commit text { s with buffer := b } = .ok () s') : Handles line s [⟨text, b⟩] s'

/-- A line that asks to leave: it is applied to the buffer, and what follows is the last commit. -/
structure Asks (line : Text) (s s₁ : Session (Observed ω)) : Prop where
  line : ∃ a b, Buffer.runLine s.options.skeleton line s.buffer = .ok a b ∧
    (a = .quit ∨ a = .help) ∧ s₁ = { s with buffer := b, output := s₁.output }

variable {line : Text} {s s₁ s' : Session (Observed ω)} {made : List (Commit ω)}

theorem runLine_seen (line : Text) (s : Session (Observed ω)) :
    Ends (Buffer.runLine s.options.skeleton line) s.buffer
      (fun _ b => b.store.seen = s.buffer.store.seen)
      (fun _ b => b.store.seen = s.buffer.store.seen) :=
  Buffer.runLine_preserves (Observed.stable s.buffer.store.seen) s.options.skeleton line s.buffer rfl

theorem Handles.seen (h : Handles line s made s') :
    s'.buffer.store.seen = s.buffer.store.seen ++ made.filterMap Commit.found? := by
  have hs := runLine_seen line s
  cases h with
  | aside hline =>
    rw [List.filterMap_nil, List.append_nil]
    obtain ⟨e, hr⟩ | ⟨a, hr, -⟩ := hline
    · exact hs.error_of hr
    · exact hs.ok_of hr
  | @commit text b _ hline hc =>
    have hb : Leads [] s { s with buffer := b } := leads_buffer (hs.ok_of hline)
    exact (hb.trans ((commit_leads text _).ok_of hc)).seen

theorem Asks.seen (h : Asks line s s₁) : s₁.buffer.store.seen = s.buffer.store.seen := by
  obtain ⟨a, b, hr, -, hs⟩ := h.line
  rw [hs]
  exact (runLine_seen line s).ok_of hr

/-- What comes of a line that was handled. -/
def Handled (line : Text) (s : Session (Observed ω)) (flow : Flow) (s' : Session (Observed ω)) :
    Prop :=
  match flow with
  | .proceed => s'.output.failed = s.output.failed ∧ ∃ made, Handles line s made s'
  | .stop => ∃ s₁, Asks line s s₁ ∧ s₁.output.failed = s.output.failed ∧ finalize s₁ = .ok () s'

omit [Workshop ω] in
/-- What is shown of a line that asks for no commit. -/
theorem present_ends (v : Screen.Showing) (s : Session (Observed ω)) :
    Ends (present v) s
      (fun _ s' => s' = { s with output := s'.output } ∧ s'.output.failed = s.output.failed)
      (Breaks s) := by
  refine ((display_ends _ s).both (display_quiet _ s)).mono ?_ fun _ _ => And.right
  intro _ _ hend
  obtain ⟨⟨output, -, rfl⟩, h⟩ := hend
  exact ⟨rfl, h.output⟩

theorem finalize_handled {line : Text} {s s₁ : Session (Observed ω)} (ha : Asks line s s₁)
    (ho : s₁.output.failed = s.output.failed) :
    Ends (do finalize; pure Flow.stop) s₁ (Handled line s) (Breaks s) := by
  refine (finalize_ends s₁).ran.bind ?_ fun _ _ he => ⟨ho ▸ he.output, he.error⟩
  intro _ s₂ hend
  obtain ⟨hf, -⟩ := hend
  exact ⟨s₁, ha, ho, hf⟩

theorem handleLine_ends (line : Text) (s : Session (Observed ω)) :
    Ends (handleLine line) s (Handled line s) (Breaks s) := by
  rw [Ends, handleLine_apply]
  -- what is shown after a line that is done with the buffer
  have shown {b : Buffer (Observed ω)} (hb : Aside line s b) (v : Screen.Showing) :
      Ends (do present v; pure Flow.proceed) { s with buffer := b } (Handled line s) (Breaks s) := by
    refine (present_ends v _).bind ?_ fun _ _ he => ⟨he.output, he.error⟩
    intro _ s₁ hend
    obtain ⟨hs, ho⟩ := hend
    rw [hs]
    exact ⟨ho, [], .aside hb⟩
  cases hr : Buffer.runLine s.options.skeleton line s.buffer with
  | error e b => exact shown (.inl ⟨e, hr⟩) (.error _)
  | ok a b =>
    cases a with
    | done => exact ⟨rfl, [], .aside (.inr ⟨_, hr, rfl⟩)⟩
    | clearScreen => exact shown (.inr ⟨_, hr, rfl⟩) .cleared
    | print lines => exact shown (.inr ⟨_, hr, rfl⟩) (.listing lines)
    | commit text =>
      refine Ends.bind (commit_leads text _).ran ?_ fun _ _ he => ⟨he.output, he.error⟩
      intro _ s₁ hend
      obtain ⟨hc, h⟩ := hend
      exact ⟨h.output, _, .commit hr hc⟩
    | quit => exact finalize_handled ⟨_, b, hr, .inl rfl, rfl⟩ rfl
    | help =>
      refine Ends.bind (present_ends .help _) ?_ fun _ _ he => ⟨he.output, he.error⟩
      intro _ s₁ hend
      obtain ⟨hs, ho⟩ := hend
      exact finalize_handled ⟨_, b, hr, .inr rfl, hs⟩ ho

/-! ## Runs -/

/-- Lines that let a run go on lead from one prompt to another, with their commits in order. -/
inductive Course : Keyboard → Session (Observed ω) → List (Commit ω) → Keyboard →
    Session (Observed ω) → Prop
  | nil {keyboard : Keyboard} {s : Session (Observed ω)} : Course keyboard s [] keyboard s
  | line {keyboard keyboard₁ keyboard' : Keyboard} {s s₁ s' : Session (Observed ω)} {line : Text}
      {screen : Sink} {made commits : List (Commit ω)}
      (hread : Terminal.readLine (Screen.prompt s.buffer.cursor) ⟨keyboard, s.output⟩ =
        .ok (.line line) ⟨keyboard₁, screen⟩)
      (hline : Handles line { s with output := screen } made s₁)
      (rest : Course keyboard₁ s₁ commits keyboard' s') :
      Course keyboard s (made ++ commits) keyboard' s'

/-- How a run is left for its last commit: by a line that asks for it, or because no line comes any
more. -/
inductive Leaves (keyboard : Keyboard) (s : Session (Observed ω)) :
    Keyboard → Session (Observed ω) → Prop
  | asked {keyboard' : Keyboard} {s' : Session (Observed ω)} {line : Text} {screen : Sink}
      (hread : Terminal.readLine (Screen.prompt s.buffer.cursor) ⟨keyboard, s.output⟩ =
        .ok (.line line) ⟨keyboard', screen⟩)
      (hline : Asks line { s with output := screen } s') : Leaves keyboard s keyboard' s'
  | interrupted {keyboard' : Keyboard} {screen : Sink}
      (hread : Terminal.readLine (Screen.prompt s.buffer.cursor) ⟨keyboard, s.output⟩ =
        .ok .interrupted ⟨keyboard', screen⟩) :
      Leaves keyboard s keyboard' { s with output := screen }
  | unread {e : IoError} {keyboard' : Keyboard} {screen output : Sink}
      (hread : Terminal.readLine (Screen.prompt s.buffer.cursor) ⟨keyboard, s.output⟩ =
        .error (.io e) ⟨keyboard', screen⟩) :
      Leaves keyboard s keyboard' { s with output }

/-- A run that was left for its last commit, after which nothing was done but to end the row. The tools
have found what each commit left for them, the last one included, and nothing else. -/
def FinalizedOnce (keyboard : Keyboard) (s : Session (Observed ω)) (keyboard' : Keyboard)
    (s' : Session (Observed ω)) : Prop :=
  ∃ commits keyboard₁ s₁ s₂, Course keyboard s commits keyboard₁ s₁ ∧
    Leaves keyboard₁ s₁ keyboard' s₂ ∧ finalize s₂ = .ok () s' ∧
    (∃ s₃, commit [] s₂ = .ok () s₃ ∧ s' = { s₃ with output := s'.output }) ∧
    s'.buffer.store.seen =
      s.buffer.store.seen ++ (commits ++ [(⟨[], s₂.buffer⟩ : Commit ω)]).filterMap Commit.found?

section Runs

variable {keyboard keyboard₁ keyboard' : Keyboard} {screen : Sink}

theorem Leaves.seen (h : Leaves keyboard s keyboard' s') :
    s'.buffer.store.seen = s.buffer.store.seen := by
  cases h with
  | asked hread hline => exact hline.seen
  | interrupted hread => rfl
  | unread hread => rfl

theorem FinalizedOnce.of_leaves (hl : Leaves keyboard s keyboard' s₁)
    (hf : finalize s₁ = .ok () s') : FinalizedOnce keyboard s keyboard' s' := by
  obtain ⟨s₂, hc, hs⟩ := (finalize_ends s₁).ok_of hf
  refine ⟨[], keyboard, s, s₁, .nil, hl, hf, ⟨s₂, hc, hs⟩, ?_⟩
  have hseen := ((commit_leads [] s₁).ok_of hc).seen
  rw [hs, ← hl.seen]
  exact hseen

/-- One more line before. -/
theorem FinalizedOnce.after
    (hread : Terminal.readLine (Screen.prompt s.buffer.cursor) ⟨keyboard, s.output⟩ =
      .ok (.line line) ⟨keyboard₁, screen⟩)
    (hline : Handles line { s with output := screen } made s₁)
    (h : FinalizedOnce keyboard₁ s₁ keyboard' s') : FinalizedOnce keyboard s keyboard' s' := by
  obtain ⟨commits, keyboard₂, s₂, s₃, hcourse, hl, hf, hlast, hseen⟩ := h
  refine ⟨made ++ commits, keyboard₂, s₂, s₃, .line hread hline hcourse, hl, hf, hlast, ?_⟩
  rw [hseen, hline.seen, List.append_assoc, List.append_assoc, ← List.filterMap_append]

/-- How a run from a session at a keyboard may end. -/
def Ended (keyboard : Keyboard) (s : Session (Observed ω)) : Outcome (Observed ω) → Prop
  | .ok _ (keyboard', s') => FinalizedOnce keyboard s keyboard' s'
  | .error (.output _) (_, s') => s.output.failed < s'.output.failed
  | .error (.terminal _) (keyboard', _) => keyboard.mode.failures < keyboard'.mode.failures
  | .error (.buffer _) _ => False

theorem Ended.of_breaks {e : SessionError} (h : Breaks s₁ e s')
    (ho : s.output.failed ≤ s₁.output.failed) : Ended keyboard s (.error e (keyboard', s')) := by
  obtain ⟨io, rfl⟩ := h.error
  exact Nat.lt_of_le_of_lt ho h.output

/-- The last commit of a run. -/
theorem Ended.of_finalize (hl : Leaves keyboard s keyboard' s₁)
    (ho : s.output.failed ≤ s₁.output.failed) :
    Ended keyboard s (leaving keyboard' (finalize s₁)) := by
  have hends := finalize_ends s₁
  cases hf : finalize s₁ with
  | ok a s' => exact .of_leaves hl hf
  | error e s' => exact .of_breaks (hends.error_of hf) ho

theorem Ended.after {o : Outcome (Observed ω)}
    (hread : Terminal.readLine (Screen.prompt s.buffer.cursor) ⟨keyboard, s.output⟩ =
      .ok (.line line) ⟨keyboard₁, screen⟩)
    (hline : Handles line { s with output := screen } made s₁)
    (ho : s₁.output.failed = s.output.failed)
    (hk : keyboard₁.mode.failures = keyboard.mode.failures) (h : Ended keyboard₁ s₁ o) :
    Ended keyboard s o := by
  rcases o with ⟨_, keyboard', s'⟩ | ⟨e, keyboard', s'⟩
  · exact FinalizedOnce.after hread hline h
  · cases e with
    | output e => exact Nat.lt_of_le_of_lt (Nat.le_of_eq ho.symm) h
    | terminal e => exact Nat.lt_of_le_of_lt (Nat.le_of_eq hk.symm) h
    | buffer e => exact h

end Runs

theorem run_ended (keyboard : Keyboard) (s : Session (Observed ω)) :
    Ended keyboard s (run keyboard s) := by
  fun_induction run keyboard s with
  | case1 keyboard s e t hread => exact ((Terminal.readLine_ends _ _).error_of hread).2
  | case2 keyboard s e t hread =>
    -- the error of the input may come from the screen, so that more writes have failed than before
    obtain ⟨hs, -⟩ := (Terminal.readLine_ends _ _).error_of hread
    have hshown := present_ends (.error (InputError.io e).message.toList) { s with output := t.screen }
    rw [bind_apply]
    cases hr : diagnose (InputError.io e).message.toList { s with output := t.screen } with
    | error failure s₁ => exact .of_breaks (hshown.error_of hr) hs
    | ok _ s₁ =>
      obtain ⟨hs₁, ho⟩ := hshown.ok_of hr
      have hl : Leaves keyboard s t.keyboard s₁ := by
        rw [hs₁]
        exact .unread hread
      exact .of_finalize hl (Nat.le_trans hs (Nat.le_of_eq ho.symm))
  | case3 keyboard s t hread =>
    have hq := (Terminal.readLine_ends _ _).ok_of hread
    exact .of_finalize (.interrupted hread) (Nat.le_of_eq hq.1.symm)
  | case4 keyboard s line t hread e s₁ hline =>
    have hq := (Terminal.readLine_ends _ _).ok_of hread
    exact .of_breaks ((handleLine_ends line _).error_of hline) (Nat.le_of_eq hq.1.symm)
  | case5 keyboard s line t hread s₁ hline =>
    obtain ⟨s₂, ha, -, hf⟩ := (handleLine_ends line _).ok_of hline
    exact .of_leaves (.asked hread ha) hf
  | case6 keyboard s line t hread s₁ hline ih =>
    have hq := (Terminal.readLine_ends _ _).ok_of hread
    obtain ⟨ho, made, hm⟩ := (handleLine_ends line _).ok_of hline
    exact ih.after hread hm (ho.trans hq.1) hq.2

/-- **A session comes to its last commit, whatever fails in the store, the tools and the log**, and
whatever is typed. It commits last only once, nothing is done after that, and the tools are called
once for each commit whose text was written and the program closed, just on what these left, and never
else. Otherwise the session ends in an error: then a write to the screen has failed since it began, or
a switch of the mode. -/
theorem run_finalizes_once (keyboard : Keyboard) (s : Session (Observed ω)) :
    (∃ keyboard' s', run keyboard s = .ok () (keyboard', s') ∧
        FinalizedOnce keyboard s keyboard' s') ∨
      (∃ e keyboard' s', run keyboard s = .error (.output e) (keyboard', s') ∧
        s.output.failed < s'.output.failed) ∨
      ∃ e keyboard' s', run keyboard s = .error (.terminal e) (keyboard', s') ∧
        keyboard.mode.failures < keyboard'.mode.failures := by
  have h := run_ended keyboard s
  rcases hr : run keyboard s with ⟨_, keyboard', s'⟩ | ⟨e, keyboard', s'⟩
  · rw [hr] at h
    exact .inl ⟨keyboard', s', rfl, h⟩
  · rw [hr] at h
    cases e with
    | output e => exact .inr (.inl ⟨e, keyboard', s', rfl, h⟩)
    | terminal e => exact .inr (.inr ⟨e, keyboard', s', rfl, h⟩)
    | buffer e => exact h.elim

end Session
end LineRepl
