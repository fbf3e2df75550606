import LineRepl.Proofs.ClosedSessions
import LineRepl.Proofs.SessionRounds
import LineRepl.Proofs.ShownLine

/-! Only printable lines reach a session. Lines come from single printable bytes and from remembered
lines, and a line is remembered as it is returned, so from an empty ring on nothing else is typed,
recalled or remembered, whatever the bytes are and whatever fails. No line has a line feed in it,
then, and a commit of program text adds one line to a program whose last stored line is ended and has
a closing brace. Every line of a session leaves such a program behind. -/
namespace LineRepl

open Attempt Buffer

/-! ## Reading -/

namespace HistoryRing

variable {r : HistoryRing}

theorem printable_ofCapacity (capacity : Nat) : (ofCapacity capacity).Printable := by
  intro line h
  obtain ⟨-, rfl⟩ := Array.mem_replicate.mp h
  exact nofun

theorem Printable.submit (hr : r.Printable) {line : Text} (hl : line.Printable) :
    (r.submit line).Printable := by
  intro other h
  rcases Array.mem_or_eq_of_mem_set (w := r.put_lt) h with h | rfl
  · exact hr other h
  · exact hl

end HistoryRing

theorem Text.Printable.feed_notMem {t : Text} (h : t.Printable) : '\n' ∉ t :=
  fun hm => absurd (h _ hm) (by decide)

namespace Terminal

variable {t : Terminal}

/-- A line that is returned was typed, and is remembered. -/
theorem closes_of_line {prompt text : Text} {t' : Terminal}
    (h : readLine prompt t = .ok (.line text) t') :
    ∃ l t₁, Closes prompt t l (some .enter) t₁ ∧ l.text = text ∧
      t'.keyboard.history = t₁.keyboard.history.submit text := by
  obtain ⟨l, last, t₁, hc, hclose⟩ := closes_of_ok h
  obtain ⟨e, t₂, -, hx⟩ | ⟨t₂, e, screen, -, -, hx⟩ | ⟨t₂, screen, -, -, hx⟩ :=
    close_cases prompt l last t₁
  · cases hclose.symm.trans hx
  · cases hclose.symm.trans hx
  · obtain ⟨ho, -⟩ := EStateM.Result.ok.inj (hclose.symm.trans hx)
    obtain ⟨rfl, hl⟩ := last_of_outcome ho.symm
    exact ⟨l, t₁, hc, hl, (close_history prompt l _ t₁).ok_of hclose⟩

/-- A reading returns a printable line, if it returns one, and all that is remembered stays
printable. -/
theorem readLine_printable (prompt : Text) (hr : t.keyboard.history.Printable) :
    Ends (readLine prompt) t
      (fun o t' => t'.keyboard.history.Printable ∧ ∀ text, o = .line text → text.Printable)
      fun _ t' => t'.keyboard.history.Printable := by
  have keeps {r : EStateM.Result InputError Terminal ReadOutcome} (hx : readLine prompt t = r)
      (hn : ∀ text t', r ≠ .ok (.line text) t') : (final r).keyboard.history.Printable := by
    subst hx
    exact (readLine_unsubmitted prompt t hn).printable hr
  unfold Ends
  rcases hx : readLine prompt t with ⟨text | _, t'⟩ | ⟨e, t'⟩
  · obtain ⟨l, t₁, ⟨htyped, -, -⟩, rfl, hh⟩ := closes_of_line hx
    obtain ⟨line, rfl, hl⟩ := htyped.split hr
    refine ⟨?_, fun text' ht => ReadOutcome.line.inj ht ▸ hl⟩
    rw [hh]
    exact (htyped.held.lines.printable hr).submit hl
  · exact ⟨keeps hx (fun _ _ h => by cases h), fun _ h => by cases h⟩
  · exact keeps hx (fun _ _ h => by cases h)

/-- What readings leave, one after the other, each with its prompt and with the screen that it finds,
however they end. -/
def afterReadings (t : Terminal) (calls : List (Text × Sink)) : Terminal :=
  calls.foldl (fun t call => final (readLine call.1 { t with screen := call.2 })) t

theorem afterReadings_printable (hr : t.keyboard.history.Printable) (calls : List (Text × Sink)) :
    (t.afterReadings calls).keyboard.history.Printable := by
  induction calls generalizing t with
  | nil => exact hr
  | cons call calls ih =>
    have h := readLine_printable call.1 (t := { t with screen := call.2 }) hr
    exact ih (h.mono (fun _ _ => And.left) fun _ _ => id).final_of

/-- However often and however unluckily lines are read, all lines that are returned and all that are
remembered are printable. -/
structure StaysPrintable (t : Terminal) : Prop where
  slots : ∀ calls, (t.afterReadings calls).keyboard.history.Printable
  lines : ∀ calls prompt screen text t',
    readLine prompt { t.afterReadings calls with screen } = .ok (.line text) t' → text.Printable

theorem staysPrintable (hr : t.keyboard.history.Printable) : t.StaysPrintable where
  slots := afterReadings_printable hr
  lines calls prompt screen text _ h :=
    ((readLine_printable prompt (t := { t.afterReadings calls with screen })
      (afterReadings_printable hr calls)).ok_of h).2 text rfl

end Terminal

/-! ## Counting -/

namespace Page

variable {p : Page}

/-- The last line is ended and has a closing brace, and the next write inserts. -/
structure Whole (p : Page) : Prop extends Sealed p where
  complete : p.text.Complete

theorem Whole.of_closed (hs : p.Sealed) (hc : p.text.Closed) : p.Whole := ⟨hs, hc.complete⟩

theorem complete_without (h : p.text.Complete) (start size : Nat) :
    (p.without start size).text.Complete := by
  unfold without
  split
  · exact h
  · have hlen := Text.length_pieces_of_complete h
    refine Text.Complete.append ?_ (Text.complete_rest h _)
    by_cases hs : start - 1 ≤ p.text.feeds
    · exact Text.complete_lead hs
    · rwa [Text.lead_of_length_le (by omega)]

theorem complete_deleted (h : p.text.Complete) (arg : Option LineArg) :
    (p.deleted arg).text.Complete := by
  unfold deleted
  dsimp only
  split
  · rw [shortened_text]
    exact complete_without h _ _
  · exact (resealed_closed _).complete

theorem Whole.handled (h : p.Whole) {skeleton : Text} (hs : skeleton.Closed) (line : Text) :
    (p.handled skeleton line).Whole := by
  refine ⟨h.toSealed.handled hs.mem_lastPiece line, ?_⟩
  unfold Page.handled
  split
  · split
    · exact h.complete
    · rename_i s hp
      unfold performed request applied
      cases s.command with
      | delete => exact complete_deleted h.complete s.arg
      | goto => exact (aimed_text s.arg p).symm ▸ h.complete
      | reset => exact hs.complete
      | clearScreen | print => exact h.complete
      | insert | replace | help | quit => exact (entered_closed _ _).complete
  · exact (entered_closed line p).complete

/-- A commit of one line adds one line. The brace that is cut off and put back stands in the last
line, also after the write, for there is a line below the one that is written. -/
theorem Whole.feeds_entered (h : p.Whole) {text : Text} (ht : '\n' ∉ text) :
    (p.entered text).text.feeds = p.text.feeds + 1 := by
  have hb := h.brace
  have hne : p.text ≠ [] := by
    intro he
    rw [he] at hb
    cases hb
  have hlen := Text.length_pieces_of_complete h.complete
  have hpos := Text.feeds_pos_of_complete h.complete hne
  have hcur := h.inRange.le
  rw [lineCount] at hcur
  have hlt : p.cursor - 1 < p.text.pieces.length := by omega
  -- the text after the write
  have hlead : (p.text.lead (p.cursor - 1)).Complete := Text.complete_lead (by omega)
  have hfront := hlead.append (Text.complete_append_feed text)
  have hrest := Text.rest_ne_nil hlt
  have hw := written_insert_text (text ++ ['\n']) h.mode
  have hlast : closingBrace ∈ (p.written (text ++ ['\n'])).text.lastPiece := by
    rwa [hw, Text.lastPiece_append hfront hrest, Text.lastPiece_rest hlt]
  have hc : (p.written (text ++ ['\n'])).text.Complete := by
    rw [hw]
    exact hfront.append (Text.complete_rest h.complete _)
  have htail : closingBrace ∈ (p.written (text ++ ['\n'])).text.tail := by
    rw [hw, List.tail_append_of_ne_nil (by simp)]
    exact List.mem_append_right _ (Text.lastPiece_subset _ ((Text.lastPiece_rest hlt).symm ▸ hb))
  have hcut := Text.feeds_cutBefore hc hlast htail
  have hsum := congrArg Text.feeds (Text.lead_append_rest (p.cursor - 1) p.text)
  have htext : text.feeds = 0 := List.count_eq_zero.mpr ht
  have hfeed : Text.feeds ['\n'] = 1 := rfl
  have hclosing : Text.feeds closingLine = 1 := rfl
  rw [entered, resealed_text, settle_text, Text.feeds_append, hclosing, hcut, hw, ← hsum]
  simp only [Text.feeds_append, htext, hfeed]
  omega

end Page

namespace Session

variable {ω : Type} [Workshop ω] {holds : ω → Text → Prop} {o : SessionOptions}
  {keyboard keyboard' : Keyboard} {s s' : Session ω} {line : Text} {flow : Flow} {t : Terminal}

theorem Round.printable (h : Round keyboard s line flow keyboard' s')
    (hr : keyboard.history.Printable) : line.Printable ∧ keyboard'.history.Printable := by
  obtain ⟨hread, -⟩ := h
  obtain ⟨hring, hl⟩ := (Terminal.readLine_printable _ hr).ok_of hread
  exact ⟨hl line rfl, hring⟩

theorem Reached.printable (h : Reached keyboard s keyboard' s') (hr : keyboard.history.Printable) :
    keyboard'.history.Printable := by
  induction h with
  | start => exact hr
  | round _ hround ih => exact (hround.printable ih).2

/-- The program is whole, also the one that may be restored, and what can be recalled is printable. -/
structure Orderly (holds : ω → Text → Prop) (o : SessionOptions) (keyboard : Keyboard)
    (s : Session ω) : Prop where
  page : ∃ p, At holds o p s ∧ p.Whole
  skeleton : o.skeleton.Closed
  ring : keyboard.history.Printable

/-- A line that was read adds one to the count when it is program text, however its commit ends. -/
def CountsLine (s : Session ω) (line : Text) (t : Terminal) : Prop :=
  Statement.isStatement line = false →
    Ends (handleLine line) { s with output := t.screen }
      (fun _ s' => s'.buffer.lineCount = s.buffer.lineCount + 1)
      fun _ s' => s'.buffer.lineCount = s.buffer.lineCount + 1

section Orderly

variable (k : Reliable holds) (tools : SparesText holds o)
include k tools

theorem Orderly.countsLine (h : Orderly holds o keyboard s) (ht : line.Printable) (t : Terminal) :
    CountsLine s line t := by
  intro hs
  obtain ⟨p, hp, hw⟩ := h.page
  have hc := hw.feeds_entered ht.feed_notMem
  have counts {s' : Session ω} (h' : At holds o (p.entered line) s') :
      s'.buffer.lineCount = s.buffer.lineCount + 1 := by
    rw [h'.shows.lineCount, hp.shows.lineCount, Page.lineCount, Page.lineCount, hc]
  have hl := handleLine_text_at k tools.closed (hp.withOutput t.screen) hs
  exact hl.mono (fun _ _ => counts) fun _ _ => counts

theorem Orderly.round (h : Orderly holds o keyboard s) (hr : Round keyboard s line flow keyboard' s') :
    Orderly holds o keyboard' s' := by
  have hring := (hr.printable h.ring).2
  obtain @⟨screen, -, hh⟩ := hr
  obtain ⟨p, hp, hw⟩ := h.page
  have h' := (handleLine_at k tools.closed (hp.withOutput screen) hw.inRange line).ok_of hh
  exact ⟨⟨_, h', hw.handled h.skeleton line⟩, h.skeleton, hring⟩

theorem Orderly.reached (h : Orderly holds o keyboard s) (hr : Reached keyboard s keyboard' s') :
    Orderly holds o keyboard' s' := by
  induction hr with
  | start => exact h
  | round _ hround ih => exact ih.round k tools hround

end Orderly

/-- **Only printable lines reach a session, and each line of program text is one more line.** From a
ring without lines, of whatever capacity, nothing but printable characters is ever returned or
remembered. So the lines of program text are counted right in a session whose skeletons end in a
closing line, after any lines before and however a line ends. -/
theorem printable_lines_counted (input : InputStream) (mode : ModeSwitch) (capacity : Nat) :
    (∀ screen, Terminal.StaysPrintable ⟨⟨input, mode, .ofCapacity capacity⟩, screen⟩) ∧
      ∀ {ω : Type} [Workshop ω] {holds : ω → Text → Prop} {options : SessionOptions} {w : ω}
        {K skeleton : Text}, Reliable holds → SparesText holds options → holds w K →
        skeleton.Closed → options.skeleton.Closed → ∀ output,
          ∃ b, withSkeleton w skeleton = .ok b ∧
            ∀ keyboard s,
              Reached ⟨input, mode, .ofCapacity capacity⟩ { buffer := b, options, output } keyboard s →
              ∀ line t, Terminal.readLine (Screen.prompt s.buffer.cursor) ⟨keyboard, s.output⟩ =
                  .ok (.line line) t →
                line.Printable ∧ CountsLine s line t := by
  have hring := HistoryRing.printable_ofCapacity capacity
  refine ⟨fun screen => Terminal.staysPrintable hring, ?_⟩
  intro ω _ holds options w K skeleton k tools hw hs ho output
  obtain ⟨b, hb, h⟩ := withSkeleton_shows k hw id skeleton id
  have hin := skeleton_inRange skeleton
  have h₀ : Orderly holds options ⟨input, mode, .ofCapacity capacity⟩
      { buffer := b, options, output } :=
    ⟨⟨_, ⟨h, rfl⟩, .of_closed ⟨hs.mem_lastPiece, rfl, hin⟩ hs⟩, ho, hring⟩
  refine ⟨b, hb, fun keyboard s hr line t hread => ?_⟩
  have h' := h₀.reached k tools hr
  have hl := ((Terminal.readLine_printable _ h'.ring).ok_of hread).2 line rfl
  exact ⟨hl, h'.countsLine k tools hl t⟩

/-- A sequence that is no key, `x`, `y`, backspace, `;` and return. -/
def takenBack : Bytes := [0x1B, 0x5B, 0x5A, 0x78, 0x79, 0x7F, 0x3B, 0x0D]

/-- The first line of a session over a text in memory, on a keyboard that remembers one line. -/
theorem printable_lines_counted_takenBack :
    ∃ b t, withSkeleton (rehearsed "old".toList 1 .insert).buffer.store block.skeleton = .ok b ∧
      Terminal.readLine (Screen.prompt b.cursor) ⟨⟨.ofBytes takenBack, {}, .ofCapacity 0⟩, {}⟩ =
        .ok (.line "x;".toList) t ∧
      b.lineCount = 5 ∧
      Ends (handleLine "x;".toList) { buffer := b, options := block, output := t.screen }
        (fun _ s' => s'.buffer.lineCount = 6) fun _ s' => s'.buffer.lineCount = 6 := by
  have hw : Rehearsal.Holds (rehearsed "old".toList 1 .insert).buffer.store "old".toList :=
    ⟨rfl, rfl⟩
  have hs : block.skeleton.Closed := ⟨"int main()\n\x7b\n\n".toList, rfl⟩
  obtain ⟨b, hb, h⟩ := (printable_lines_counted (.ofBytes takenBack) {} 0).2 Rehearsal.reliable
    (Rehearsal.leavesText.spares block) hw hs hs {}
  have hcount : b.lineCount = 5 := by
    obtain rfl := Except.ok.inj (hb.symm.trans rfl)
    decide
  have hf : Terminal.Follows ⟨⟨.ofBytes takenBack, {}, .ofCapacity 0⟩, {}⟩
      ⟨takenBack, .ofCapacity 0⟩ :=
    ⟨InputStream.delivers_ofBytes _, rfl, ⟨fun _ => rfl, fun _ => rfl⟩, ⟨rfl, fun _ => rfl⟩⟩
  obtain ⟨t, hr, -⟩ := Terminal.readLine_follows (Screen.prompt b.cursor) hf
  have ho : (LineEditor.readLine ⟨takenBack, .ofCapacity 0⟩).1 = .line "x;".toList := by
    decide +kernel
  rw [ho] at hr
  obtain ⟨-, hc⟩ := h _ _ .start _ t hr
  have counts {n : Nat} (hn : n = b.lineCount + 1) : n = 6 := hn.trans (congrArg (· + 1) hcount)
  exact ⟨b, t, hb, hr, hcount, (hc (by decide)).mono (fun _ _ => counts) fun _ _ => counts⟩

end Session
end LineRepl
