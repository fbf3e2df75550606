import LineRepl.Command.Dispatch
import LineRepl.Proofs.Offsets

/-! A buffer as its reader knows it, without store and index: a text, the line of the cursor, and
how the next write lands. Each change of a buffer lays down a new page and then settles it, that is
puts its cursor back into range. The lines of a write are laid in one by one; on the page they are
one splice. -/
namespace LineRepl

namespace Buffer

/-! ## Splicing -/

/-- New lines in front of those from a place on, or over as many of them. -/
def splice (mode : WriteMode) (place : Nat) (old new : List Text) : List Text :=
  match mode with
  | .insert => old.take place ++ new ++ old.drop place
  | .replace => old.take place ++ new ++ old.drop (place + new.length)

variable {mode : WriteMode} {place : Nat} {old new lines rest : List Text} {line : Text}

theorem insertIdx_of_le (h : place ≤ lines.length) :
    lines.insertIdx place line = lines.take place ++ line :: lines.drop place := by
  induction lines generalizing place with
  | nil =>
    obtain rfl := Nat.le_zero.mp h
    rfl
  | cons first lines ih =>
    cases place with
    | zero => rfl
    | succ place =>
      rw [List.insertIdx_succ_cons, ih (Nat.le_of_succ_le_succ h)]
      rfl

/-- Laying one line is splicing it in. -/
theorem lay_eq_splice (h : place ≤ lines.length) :
    lay mode place line lines = splice mode place lines [line] := by
  unfold lay
  by_cases hp : place < lines.length
  · rw [if_pos hp]
    cases mode with
    | insert => simp [splice, insertIdx_of_le h]
    | replace => simp [splice, List.set_eq_take_append_cons_drop, hp]
  · obtain rfl := Nat.le_antisymm h (Nat.le_of_not_lt hp)
    rw [if_neg hp]
    cases mode <;> simp [splice]

theorem lt_length_splice (h : place ≤ lines.length) :
    place < (splice mode place lines [line]).length := by
  cases mode <;> simp only [splice, List.length_append, List.length_take, List.length_singleton] <;>
    omega

/-- A line and then the rest at the place after it are spliced in as one. -/
theorem splice_splice (h : place ≤ lines.length) :
    splice mode (place + 1) (splice mode place lines [line]) rest =
      splice mode place lines (line :: rest) := by
  have hl : (lines.take place ++ [line]).length = place + 1 := by
    rw [List.length_append, List.length_take, Nat.min_eq_left h, List.length_singleton]
  cases mode with
  | insert =>
    simp only [splice]
    rw [List.take_left' hl, List.drop_left' hl, List.append_assoc _ [line] rest]
    rfl
  | replace =>
    have hd : place + (rest.length + 1) = place + 1 + rest.length := by omega
    simp only [splice, List.length_cons, List.length_nil, Nat.zero_add]
    rw [List.take_left' hl, ← List.drop_drop, List.drop_left' hl, List.drop_drop,
      List.append_assoc _ [line] rest, hd]
    rfl

/-- The lines that are laid are spliced in. The induction is on the new lines: what has been laid so
far is itself a splice, which is where the next one is laid. -/
theorem layAll_eq_splice (h : place ≤ old.length) :
    layAll mode place new old = splice mode place old new := by
  induction new generalizing place old with
  | nil => cases mode <;> simp [layAll, splice]
  | cons line rest ih =>
    rw [layAll, lay_eq_splice h, ih (lt_length_splice h), splice_splice h]

theorem splice_of_length_le (h : old.length ≤ place) : splice mode place old new = old ++ new := by
  cases mode with
  | insert => simp [splice, List.take_of_length_le h, List.drop_of_length_le h]
  | replace =>
    have hr := Nat.le_add_right_of_le (k := new.length) h
    simp [splice, List.take_of_length_le h, List.drop_of_length_le hr]

end Buffer

/-- The text that is committed for what a line asked for. Who leaves commits an empty line. -/
def Action.committed? : Action → Option Text
  | commit text => some text
  | help | quit => some []
  | done | clearScreen | print _ => none

structure Page where
  text : Text
  cursor : Nat
  mode : WriteMode

namespace Page

def lineCount (p : Page) : Nat := p.text.feeds + 1

/-- The cursor stands where it may. -/
structure InRange (p : Page) : Prop where
  pos : 1 ≤ p.cursor
  le : p.cursor ≤ max 1 (p.lineCount - 1)

def settle (p : Page) : Page := { p with cursor := Buffer.clamp p.lineCount p.cursor }

@[simp] theorem settle_text (p : Page) : p.settle.text = p.text := rfl
@[simp] theorem settle_lineCount (p : Page) : p.settle.lineCount = p.lineCount := rfl

theorem settle_inRange (p : Page) : p.settle.InRange := by
  constructor <;> simp only [settle, Buffer.clamp, lineCount] <;> omega

theorem InRange.settle_eq {p : Page} (h : p.InRange) : p.settle = p := by
  obtain ⟨hp, hl⟩ := h
  have : Buffer.clamp p.lineCount p.cursor = p.cursor := by
    simp only [Buffer.clamp]
    omega
  rw [settle, this]

def setCursor (line : Nat) (p : Page) : Page :=
  if 1 ≤ line ∧ line < p.lineCount then { p with cursor := line } else p

@[simp] theorem setCursor_text (line : Nat) (p : Page) : (p.setCursor line).text = p.text := by
  unfold setCursor
  split <;> rfl

@[simp] theorem setCursor_mode (line : Nat) (p : Page) : (p.setCursor line).mode = p.mode := by
  unfold setCursor
  split <;> rfl

theorem InRange.setCursor {p : Page} (h : p.InRange) (line : Nat) : (p.setCursor line).InRange := by
  unfold Page.setCursor
  split
  · rename_i hl
    refine ⟨hl.1, ?_⟩
    simp only [lineCount] at hl ⊢
    omega
  · exact h

/-- Puts a text in place of the whole. -/
def replaced (text : Text) (p : Page) : Page := { p with text }

def appended (text : Text) (p : Page) : Page :=
  { p with text := p.text ++ text, cursor := p.cursor + 1 }

def written (text : Text) (p : Page) : Page :=
  let new := Buffer.splice p.mode (p.cursor - 1) p.text.pieces text.pieces
  { text := new.flatten
    cursor := if p.cursor - 1 < p.text.pieces.length then p.cursor + 1 else new.length
    mode := .insert }

def erased (ch : Char) (p : Page) : Page := { p with text := p.text.cutBefore ch }

/-- Without `size + 1` lines from `start` on; line 0 is none. -/
def without (start size : Nat) (p : Page) : Page :=
  if start = 0 then p else { p with text := p.text.lead (start - 1) ++ p.text.rest (start + size) }

/-- With the closing brace put back and the cursor where it was. -/
def resealed (p : Page) : Page :=
  (((p.erased Buffer.closingBrace).settle.appended Buffer.closingLine).settle).setCursor p.cursor

/-- Without the lines that `del` names, the cursor on the first of them if it is still there. -/
def shortened (arg : Option LineArg) (p : Page) : Page :=
  let (start, size) := Statement.deletion p.cursor arg
  (p.without start size).settle.setCursor start

/-- What `del` makes of a page. -/
def deleted (arg : Option LineArg) (p : Page) : Page :=
  let q := p.shortened arg
  if q.text.lastPiece.contains Buffer.closingBrace then q else q.resealed

@[simp] theorem appended_text (t : Text) (p : Page) : (p.appended t).text = p.text ++ t := rfl
@[simp] theorem erased_text (ch : Char) (p : Page) : (p.erased ch).text = p.text.cutBefore ch := rfl

theorem without_of_pos {start : Nat} (h : 0 < start) (size : Nat) (p : Page) :
    p.without start size =
      { p with text := p.text.lead (start - 1) ++ p.text.rest (start + size) } :=
  if_neg (Nat.ne_of_gt h)

@[simp] theorem without_mode (start size : Nat) (p : Page) :
    (p.without start size).mode = p.mode := by
  unfold without
  split <;> rfl

/-- The line is none of the stored ones. -/
def Lacks (p : Page) (line : Nat) : Prop := line = 0 ∨ p.text.pieces.length < line

theorem Lacks.without_eq {p : Page} {start : Nat} (h : p.Lacks start) (size : Nat) :
    p.without start size = p := by
  unfold Lacks at h
  by_cases hs : start = 0
  · exact if_pos hs
  · rw [without_of_pos (Nat.pos_of_ne_zero hs), Text.lead_of_length_le (by omega),
      Text.rest_of_length_le (by omega), List.append_nil]

theorem Lacks.setCursor_eq {p : Page} {line : Nat} (h : p.Lacks line) : p.setCursor line = p := by
  have hle := Text.feeds_le_length_pieces p.text
  refine if_neg fun hl => ?_
  rw [lineCount] at hl
  unfold Lacks at h
  omega

theorem resealed_text (p : Page) :
    p.resealed.text = p.text.cutBefore Buffer.closingBrace ++ Buffer.closingLine := by
  simp [resealed]

theorem resealed_mode (p : Page) : p.resealed.mode = p.mode := setCursor_mode _ _

theorem resealed_inRange (p : Page) : p.resealed.InRange := (settle_inRange _).setCursor _

theorem shortened_text (arg : Option LineArg) (p : Page) :
    (p.shortened arg).text =
      (p.without (Statement.deletion p.cursor arg).1 (Statement.deletion p.cursor arg).2).text := by
  simp [shortened]

theorem shortened_mode (arg : Option LineArg) (p : Page) : (p.shortened arg).mode = p.mode := by
  simp [shortened, settle]

theorem shortened_inRange (arg : Option LineArg) (p : Page) : (p.shortened arg).InRange :=
  (settle_inRange _).setCursor _

theorem deleted_mode (arg : Option LineArg) (p : Page) : (p.deleted arg).mode = p.mode := by
  have hm := shortened_mode arg p
  simp only [deleted]
  split
  · exact hm
  · exact (resealed_mode _).trans hm

theorem deleted_inRange (arg : Option LineArg) (p : Page) : (p.deleted arg).InRange := by
  simp only [deleted]
  split
  · exact shortened_inRange arg p
  · exact resealed_inRange _

/-- The cursor on the line that a statement names. -/
def aimed (arg : Option LineArg) (p : Page) : Page :=
  match arg with
  | some (.line n) => p.setCursor n
  | _ => p

@[simp] theorem aimed_text (arg : Option LineArg) (p : Page) : (p.aimed arg).text = p.text := by
  unfold aimed
  split <;> simp

@[simp] theorem aimed_mode (arg : Option LineArg) (p : Page) : (p.aimed arg).mode = p.mode := by
  unfold aimed
  split <;> simp

theorem InRange.aimed {p : Page} (h : p.InRange) (arg : Option LineArg) : (p.aimed arg).InRange := by
  unfold Page.aimed
  split
  · exact h.setCursor _
  · exact h

theorem InRange.withMode {p : Page} (h : p.InRange) (mode : WriteMode) :
    InRange { p with mode } := ⟨h.pos, h.le⟩

/-- What a statement makes of a page. -/
def applied (skeleton : Text) (s : Statement) (p : Page) : Page :=
  match s.command with
  | .delete => p.deleted s.arg
  | .goto => p.aimed s.arg
  | .insert => { p.aimed s.arg with mode := .insert }
  | .replace => { p.aimed s.arg with mode := .replace }
  | .reset => (p.replaced skeleton).settle
  | _ => p

theorem InRange.applied {p : Page} (h : p.InRange) (skeleton : Text) (s : Statement) :
    (p.applied skeleton s).InRange := by
  unfold Page.applied
  split
  · exact deleted_inRange _ p
  · exact h.aimed _
  · exact (h.aimed _).withMode _
  · exact (h.aimed _).withMode _
  · exact settle_inRange _
  · exact h

/-- A text no larger than that of one of two pages: what is passed on the way from one to the other. -/
def Spans (p q : Page) (t : Text) : Prop := t.byteSize ≤ max p.text.byteSize q.text.byteSize

theorem spans_left {p q : Page} {t : Text} (h : t.byteSize ≤ p.text.byteSize) : p.Spans q t :=
  Nat.le_trans h (Nat.le_max_left _ _)

theorem spans_right (p q : Page) : p.Spans q q.text := Nat.le_max_right _ _

theorem byteSize_erased_le (ch : Char) (p : Page) : (p.erased ch).text.byteSize ≤ p.text.byteSize :=
  Text.byteSize_cutBefore_le ch p.text

theorem byteSize_shortened_le (arg : Option LineArg) (p : Page) :
    (p.shortened arg).text.byteSize ≤ p.text.byteSize := by
  rw [shortened_text, without]
  split
  · exact Nat.le_refl _
  · exact Text.byteSize_lead_append_rest_le (by omega) p.text

/-- What a statement leaves to the session. -/
def request (s : Statement) (p : Page) : Action :=
  match s.command with
  | .delete | .goto | .reset => .done
  | .insert | .replace => .commit (s.body.getD [])
  | .clearScreen => .clearScreen
  | .print => .print p.text.lines
  | .help => .help
  | .quit => .quit

end Page
end LineRepl
