import LineRepl.Proofs.Ends
import LineRepl.Session.Basic

/-! How the actions of a session are made. Whatever is to be known of what a session shows, logs, builds
and commits is known of a few small actions and passes from these to all that is made of them: a property
that holds of the small ones, and of two actions one after the other if it holds of both, holds of every
line that is handled. The properties differ in how far they reach, so there is a record of rules for each
stage. The equations say what the stages come to when an action on the buffer has ended. -/
namespace LineRepl.Session

open Attempt

variable {ω ε α β : Type}

theorem onBuffer_apply (act : EStateM ε (Buffer ω) α) (s : Session ω) :
    onBuffer act s = match act s.buffer with
      | .ok a buffer => .ok (.ok a) { s with buffer }
      | .error e buffer => .ok (.error e) { s with buffer } := by
  rw [onBuffer, caught_apply, within_apply]
  cases act s.buffer <;> rfl

theorem onSurroundings_apply (act : EStateM ε ω α) (s : Session ω) :
    onSurroundings act s = match act s.buffer.store with
      | .ok a store => .ok (.ok a) { s with buffer := { s.buffer with store } }
      | .error e store => .ok (.error e) { s with buffer := { s.buffer with store } } := by
  rw [onSurroundings, onBuffer_apply, within_apply]
  cases act s.buffer.store <;> rfl

theorem display_apply (text : Text) (s : Session ω) :
    display text s = match Sink.print text s.output with
      | .ok _ output => .ok () { s with output }
      | .error e output => .error (.output e) { s with output } := by
  rw [display, adaptExcept_apply, within_apply]
  cases Sink.print text s.output <;> rfl

theorem present_apply (v : Screen.Showing) (s : Session ω) :
    present v s = display (v.page s.options.colour) s := rfl

variable [Workshop ω]

theorem appendLog_apply (tag : LogTag) (text : Text) (s : Session ω) :
    appendLog tag text s = match s.options.log with
      | none => .ok (.ok ()) s
      | some path => match Workshop.appendLog path tag text s.buffer.store with
        | .ok _ store => .ok (.ok ()) { s with buffer := { s.buffer with store } }
        | .error e store =>
          .ok (.error (path, e)) { s with buffer := { s.buffer with store } } := by
  simp only [appendLog, bind_apply, get_apply]
  cases s.options.log with
  | none => rfl
  | some path =>
    simp only [bind_apply, onSurroundings_apply]
    cases Workshop.appendLog path tag text s.buffer.store <;> rfl

theorem callTools_apply (s : Session ω) :
    callTools s = match Workshop.buildAndRun s.options.source s.buffer.store with
      | .ok r store => .ok (.ok r) { s with buffer := { s.buffer with store } }
      | .error e store => .ok (.error e) { s with buffer := { s.buffer with store } } := by
  have hcall : callTools s = onSurroundings (Workshop.buildAndRun s.options.source) s := rfl
  rw [hcall, onSurroundings_apply]
  cases Workshop.buildAndRun s.options.source s.buffer.store <;> rfl

theorem build_apply (s : Session ω) :
    build s = match Workshop.buildAndRun s.options.source s.buffer.store with
      | .ok r store => report r { s with buffer := { s.buffer with store } }
      | .error e store => diagnose e.message { s with buffer := { s.buffer with store } } := by
  rw [build, bind_apply, callTools_apply]
  cases Workshop.buildAndRun s.options.source s.buffer.store <;> rfl

/-- A commit whose text is in the store goes on with the tools. -/
theorem commit_apply (text : Text) (s : Session ω) :
    commit text s = match enter text s.buffer with
      | .ok _ buffer => build { s with buffer }
      | .error e buffer => diagnose e.message.toList { s with buffer } := by
  rw [commit, bind_apply, onBuffer_apply]
  cases enter text s.buffer <;> rfl

theorem handleLine_apply (line : Text) (s : Session ω) :
    handleLine line s = match Buffer.runLine s.options.skeleton line s.buffer with
      | .ok action buffer => perform action { s with buffer }
      | .error e buffer => (do diagnose e.message.toList; pure Flow.proceed) { s with buffer } := by
  have happly : applyLine line s = onBuffer (Buffer.runLine s.options.skeleton line) s := rfl
  rw [handleLine, bind_apply, happly, onBuffer_apply]
  cases Buffer.runLine s.options.skeleton line s.buffer <;> rfl

/-! ## Small actions -/

omit [Workshop ω] in
/-- Showing a text changes nothing but the output. -/
theorem display_ends (text : Text) (s : Session ω) :
    Ends (display text) s
      (fun _ s' => ∃ output, Sink.print text s.output = .ok () output ∧ s' = { s with output })
      fun e s' => ∃ io output, Sink.print text s.output = .error io output ∧ e = .output io ∧
        s' = { s with output } := by
  rw [Ends, display_apply]
  cases Sink.print text s.output with
  | ok _ output => exact ⟨output, rfl, rfl⟩
  | error io output => exact ⟨io, output, rfl, rfl, rfl⟩

omit [Workshop ω] in
/-- What is done to the buffer is handed on, also when it fails. -/
theorem onBuffer_ends {act : EStateM ε (Buffer ω) α} {s : Session ω} {K : Buffer ω → Prop}
    (h : Ends act s.buffer (fun _ b => K b) fun _ b => K b) :
    Ends (onBuffer act) s (fun _ s' => ∃ buffer, K buffer ∧ s' = { s with buffer })
      fun _ _ => False := by
  rw [Ends, onBuffer_apply]
  cases hr : act s.buffer with
  | ok a buffer => exact ⟨buffer, h.ok_of hr, rfl⟩
  | error e buffer => exact ⟨buffer, h.error_of hr, rfl⟩

theorem appendLog_ends {tag : LogTag} {text : Text} {s : Session ω} {K : ω → Prop}
    (hs : K s.buffer.store) (h : ∀ path, s.options.log = some path →
      Ends (Workshop.appendLog path tag text) s.buffer.store (fun _ w => K w) fun _ w => K w) :
    Ends (appendLog tag text) s
      (fun _ s' => ∃ store, K store ∧ s' = { s with buffer := { s.buffer with store } })
      fun _ _ => False := by
  rw [Ends, appendLog_apply]
  cases hp : s.options.log with
  | none => exact ⟨s.buffer.store, hs, rfl⟩
  | some path =>
    have hlog := h path hp
    dsimp only
    cases hr : Workshop.appendLog path tag text s.buffer.store with
    | ok _ store => exact ⟨store, hlog.ok_of hr, rfl⟩
    | error e store => exact ⟨store, hlog.error_of hr, rfl⟩

theorem callTools_ends {s : Session ω} {K : ω → Prop}
    (h : Ends (Workshop.buildAndRun s.options.source) s.buffer.store (fun _ w => K w)
      fun _ w => K w) :
    Ends callTools s
      (fun _ s' => ∃ store, K store ∧ s' = { s with buffer := { s.buffer with store } })
      fun _ _ => False := by
  rw [Ends, callTools_apply]
  cases hr : Workshop.buildAndRun s.options.source s.buffer.store with
  | ok r store => exact ⟨store, h.ok_of hr, rfl⟩
  | error e store => exact ⟨store, h.error_of hr, rfl⟩

/-! ## Rules -/

variable {P : ∀ {α : Type}, Action ω α → Prop}

/-- `P` holds of what is shown and logged, and of actions one after the other. -/
structure Telling (P : ∀ {α : Type}, Action ω α → Prop) : Prop where
  pure {α : Type} (a : α) : P (Pure.pure a : Action ω α)
  bind {α β : Type} {x : Action ω α} {f : α → Action ω β} : P x → (∀ a, P (f a)) → P (x >>= f)
  present (v : Screen.Showing) : P (present v : Action ω Unit)
  appendLog (tag : LogTag) (text : Text) : P (appendLog tag text : Action ω _)

/-- And of the call of the tools. -/
structure Building (P : ∀ {α : Type}, Action ω α → Prop) : Prop extends Telling P where
  callTools : P (callTools : Action ω _)

/-- And of what is entered into the buffer. -/
structure Committing (P : ∀ {α : Type}, Action ω α → Prop) : Prop extends Building P where
  enter (text : Text) : P (onBuffer (enter text) : Action ω _)
  newRow : P (display ['\n'] : Action ω Unit)

/-- And of each line that is applied to the buffer. -/
structure Handling (P : ∀ {α : Type}, Action ω α → Prop) : Prop extends Committing P where
  applyLine (line : Text) : P (applyLine line : Action ω _)

theorem Telling.log (h : Telling P) (tag : LogTag) (text : Text) :
    P (log tag text : Action ω Unit) := by
  refine h.bind (h.appendLog tag text) fun added => ?_
  cases added with
  | ok _ => exact h.pure ()
  | error failure => exact h.present _

theorem Telling.reportRun (h : Telling P) (run : ExecOutput) :
    P (reportRun run : Action ω Unit) := by
  refine h.bind (h.present _) fun _ => h.bind (h.log _ _) fun _ => ?_
  split
  · exact h.pure _
  · exact h.present _

theorem Telling.report (h : Telling P) (r : RunReport) : P (report r : Action ω Unit) := by
  refine h.bind (h.present _) fun _ => h.bind (h.log _ _) fun _ => ?_
  split
  · exact h.reportRun _
  · exact h.pure _

theorem Building.build (h : Building P) : P (build : Action ω Unit) := by
  refine h.bind h.callTools fun answer => ?_
  cases answer with
  | ok r => exact h.report r
  | error e => exact h.present _

theorem Committing.commit (h : Committing P) (text : Text) : P (commit text : Action ω Unit) := by
  refine h.bind (h.enter text) fun entered => ?_
  cases entered with
  | ok _ => exact h.build
  | error e => exact h.present _

theorem Committing.finalize (h : Committing P) : P (finalize : Action ω Unit) :=
  h.bind (h.commit []) fun _ => h.newRow

theorem Committing.perform (h : Committing P) (a : LineRepl.Action) :
    P (perform a : Action ω Flow) := by
  cases a with
  | done => exact h.pure _
  | commit text => exact h.bind (h.commit text) fun _ => h.pure _
  | clearScreen | print => exact h.bind (h.present _) fun _ => h.pure _
  | help => exact h.bind (h.present _) fun _ => h.bind h.finalize fun _ => h.pure _
  | quit => exact h.bind h.finalize fun _ => h.pure _

theorem Handling.handleLine (h : Handling P) (line : Text) :
    P (handleLine line : Action ω Flow) := by
  refine h.bind (h.applyLine line) fun applied => ?_
  cases applied with
  | ok a => exact h.perform a
  | error e => exact h.bind (h.present _) fun _ => h.pure _

end LineRepl.Session
