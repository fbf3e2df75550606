import LineRepl.Proofs.StoredBytes
import LineRepl.Terminal.Escape

/-! A row of a terminal as the bytes that arrive paint it. The row is as wide as need be. It knows
printable characters, the control sequences that go to a column, move right or clear the rest of the
row, and the way to the next row. It makes nothing of any other byte, so that bytes which paint
something are such characters and sequences throughout. -/
namespace LineRepl

/-- A character of ASCII that has a shape, or the blank. -/
def isPrintable (c : Char) : Bool := 0x20 ≤ c.toNat && c.toNat ≤ 0x7E

theorem isPrintable_iff (c : Char) :
    isPrintable c = true ↔ 0x20 ≤ c.toNat ∧ c.toNat ≤ 0x7E := by
  simp only [isPrintable, Bool.and_eq_true, decide_eq_true_eq]

/-- Nothing but printable characters. -/
def Text.Printable (t : Text) : Prop := ∀ c ∈ t, isPrintable c = true

instance (t : Text) : Decidable t.Printable :=
  decidable_of_iff (t.all isPrintable = true) List.all_eq_true

/-- How far a control sequence has arrived: not begun, begun, or up to its number. -/
inductive Arrived
  | none
  | escape
  | number (n : Option Nat)
  deriving DecidableEq, Repr

structure TerminalRow where
  /-- The rows that were left, first one first. -/
  finished : List Text := []
  cells : Text := []
  column : Nat := 0
  arrived : Arrived := .none
  deriving DecidableEq, Repr

namespace TerminalRow

/-- Puts a character into the cell at the column. Cells that were skipped are blank. -/
def put (c : Char) (r : TerminalRow) : TerminalRow :=
  { r with
    cells := r.cells.take r.column ++ List.replicate (r.column - r.cells.length) ' ' ++
      c :: r.cells.drop (r.column + 1)
    column := r.column + 1 }

/-- A byte outside of control sequences. -/
def plain (b : UInt8) (r : TerminalRow) : Option TerminalRow :=
  if b = 0x1B then some { r with arrived := .escape }
  else if b = 0x0D then some { r with column := 0 }
  else if b = 0x0A then some { r with finished := r.finished ++ [r.cells], cells := [] }
  else if 0x20 ≤ b ∧ b ≤ 0x7E then some (r.put (Char.ofNat b.toNat))
  else none

/-- A byte of a control sequence with the number `n` so far. Columns count from 1, and a move is by
one column at least. -/
def control (n : Option Nat) (b : UInt8) (r : TerminalRow) : Option TerminalRow :=
  if 0x30 ≤ b ∧ b ≤ 0x39 then
    some { r with arrived := .number (some (10 * n.getD 0 + (b.toNat - 0x30))) }
  else if b = 0x47 then some { r with column := max (n.getD 1) 1 - 1, arrived := .none }
  else if b = 0x43 then some { r with column := r.column + max (n.getD 1) 1, arrived := .none }
  else if b = 0x4B ∧ n = none then
    some { r with cells := r.cells.take r.column, arrived := .none }
  else none

def feed (r : TerminalRow) (b : UInt8) : Option TerminalRow :=
  match r.arrived with
  | .none => r.plain b
  | .escape => if b = 0x5B then some { r with arrived := .number none } else none
  | .number n => r.control n b

/-- What bytes make of a row, if they mean something to it. -/
def paint (r : TerminalRow) (bytes : Bytes) : Option TerminalRow := bytes.foldlM feed r

theorem paint_append (r : TerminalRow) (a b : Bytes) :
    r.paint (a ++ b) = (r.paint a).bind (·.paint b) := List.foldlM_append

theorem paint_append_of {r r₁ : TerminalRow} {a : Bytes} (h : r.paint a = some r₁) (b : Bytes) :
    r.paint (a ++ b) = r₁.paint b := by
  rw [paint_append, h]
  rfl

theorem paint_cons_of {r r₁ : TerminalRow} {b : UInt8} (h : r.feed b = some r₁) (bytes : Bytes) :
    r.paint (b :: bytes) = r₁.paint bytes := by
  show (r.feed b).bind (List.foldlM feed · bytes) = _
  rw [h]
  rfl

/-! ## Text -/

theorem utf8_of_lt {c : Char} (h : c.toNat < 128) :
    String.utf8EncodeChar c = [UInt8.ofNat c.toNat] := by
  unfold String.utf8EncodeChar
  exact if_pos (Nat.le_of_lt_succ h)

theorem toNat_ofNat_of_lt {n : Nat} (h : n < 128) : (UInt8.ofNat n).toNat = n := by
  rw [UInt8.toNat_ofNat_of_lt']
  exact Nat.lt_trans h (by decide)

theorem ofNat_le {n m : Nat} (hn : n < 128) (hm : m < 128) (h : n ≤ m) :
    UInt8.ofNat n ≤ UInt8.ofNat m := by
  rwa [UInt8.le_iff_toNat_le, toNat_ofNat_of_lt hn, toNat_ofNat_of_lt hm]

theorem plain_printable {b : UInt8} (h : 0x20 ≤ b ∧ b ≤ 0x7E) (r : TerminalRow) :
    r.plain b = some (r.put (Char.ofNat b.toNat)) := by
  have he : b ≠ 0x1B := by
    rintro rfl
    exact absurd h.1 (by decide)
  have hr : b ≠ 0x0D := by
    rintro rfl
    exact absurd h.1 (by decide)
  have hf : b ≠ 0x0A := by
    rintro rfl
    exact absurd h.1 (by decide)
  rw [plain, if_neg he, if_neg hr, if_neg hf, if_pos h]

theorem paint_char {r : TerminalRow} (hr : r.arrived = .none) {c : Char}
    (hc : isPrintable c = true) (t : Text) :
    r.paint (Text.utf8 (c :: t)) = (r.put c).paint t.utf8 := by
  obtain ⟨hl, hu⟩ := (isPrintable_iff c).mp hc
  have hn : c.toNat < 128 := Nat.lt_of_le_of_lt hu (by decide)
  have hp : 0x20 ≤ UInt8.ofNat c.toNat ∧ UInt8.ofNat c.toNat ≤ 0x7E :=
    ⟨ofNat_le (by decide) hn hl, ofNat_le hn (by decide) hu⟩
  have hf : r.feed (UInt8.ofNat c.toNat) = some (r.put c) := by
    unfold feed
    rw [hr]
    dsimp only
    rw [plain_printable hp, toNat_ofNat_of_lt hn, Char.ofNat_toNat]
  rw [Text.utf8_cons, utf8_of_lt hn]
  exact paint_cons_of hf t.utf8

variable (finished : List Text)

/-- A character that is put in the row overwrites the one that stands there. -/
theorem put_append (c : Char) (a b : Text) :
    put c ⟨finished, a ++ b, a.length, .none⟩ =
      ⟨finished, (a ++ [c]) ++ b.tail, (a ++ [c]).length, .none⟩ := by
  have hg : a.length - (a ++ b).length = 0 := by
    rw [List.length_append]
    omega
  have hd : (a ++ b).drop (a.length + 1) = b.tail := by
    rw [← List.drop_drop, List.drop_left, List.drop_one]
  rw [put]
  dsimp only
  rw [hg, hd, List.take_left, List.replicate_zero, List.append_nil, List.append_cons,
    List.length_append, List.length_singleton]

/-- Text overwrites the cells from the column on. -/
theorem paint_text {t : Text} (ht : t.Printable) (a b : Text) :
    paint ⟨finished, a ++ b, a.length, .none⟩ t.utf8 =
      some ⟨finished, a ++ t ++ b.drop t.length, (a ++ t).length, .none⟩ := by
  induction t generalizing a b with
  | nil =>
    rw [List.append_nil]
    rfl
  | cons c t ih =>
    rw [paint_char rfl (ht c List.mem_cons_self), put_append,
      ih (fun d hd => ht d (List.mem_cons_of_mem c hd)), List.append_cons a c t, ← List.drop_one,
      List.drop_drop, List.length_cons, Nat.add_comm]

/-! ## Control sequences -/

variable (cells : Text) (column : Nat)

theorem paint_firstColumn : paint ⟨finished, cells, column, .none⟩ (Text.utf8 Escape.firstColumn) =
    some ⟨finished, cells, 0, .none⟩ := rfl

theorem paint_clearRest : paint ⟨finished, cells, column, .none⟩ (Text.utf8 Escape.clearRest) =
    some ⟨finished, cells.take column, column, .none⟩ := rfl

theorem paint_newRow : paint ⟨finished, cells, column, .none⟩ (Text.utf8 Escape.newRow) =
    some ⟨finished ++ [cells], [], 0, .none⟩ := rfl

theorem paint_digit {c : Char} (hc : c.isDigit = true) (n : Option Nat) (t : Text) :
    paint ⟨finished, cells, column, .number n⟩ (Text.utf8 (c :: t)) =
      paint ⟨finished, cells, column, .number (some (10 * n.getD 0 + (c.toNat - '0'.toNat)))⟩
        t.utf8 := by
  obtain ⟨hl, hu⟩ := Char.isDigit_iff_toNat.mp hc
  have hn : c.toNat < 128 := Nat.lt_of_le_of_lt hu (by decide)
  have hd : 0x30 ≤ UInt8.ofNat c.toNat ∧ UInt8.ofNat c.toNat ≤ 0x39 :=
    ⟨ofNat_le (by decide) hn hl, ofNat_le hn (by decide) hu⟩
  have hf : feed ⟨finished, cells, column, .number n⟩ (UInt8.ofNat c.toNat) =
      some ⟨finished, cells, column, .number (some (10 * n.getD 0 + (c.toNat - '0'.toNat)))⟩ := by
    show control n _ _ = _
    rw [control, if_pos hd, toNat_ofNat_of_lt hn]
    rfl
  rw [Text.utf8_cons, utf8_of_lt hn]
  exact paint_cons_of hf t.utf8

theorem paint_digits {ds : Text} (h : ∀ c ∈ ds, c.isDigit = true) (n : Nat) :
    paint ⟨finished, cells, column, .number (some n)⟩ ds.utf8 =
      some ⟨finished, cells, column, .number (some (Nat.ofDigitChars 10 ds n))⟩ := by
  induction ds generalizing n with
  | nil => rfl
  | cons c ds ih =>
    rw [paint_digit _ _ _ (h c List.mem_cons_self), ih fun d hd => h d (List.mem_cons_of_mem c hd),
      Nat.ofDigitChars_cons]
    rfl

/-- The digits of a number arrive as this number. -/
theorem paint_decimal (n : Nat) :
    paint ⟨finished, cells, column, .number none⟩ (Text.decimal n).utf8 =
      some ⟨finished, cells, column, .number (some n)⟩ := by
  have hds : ∀ c ∈ Text.decimal n, c.isDigit = true := fun c hc =>
    Nat.isDigit_of_mem_toDigits (by decide) (by decide) hc
  have hv : Nat.ofDigitChars 10 (Text.decimal n) 0 = n :=
    Nat.ofDigitChars_toDigits (by decide) (by decide)
  obtain ⟨c, ds, he⟩ := List.exists_cons_of_ne_nil (l := Text.decimal n) Nat.toDigits_ne_nil
  rw [he] at hds hv ⊢
  rw [paint_digit _ _ _ (hds c List.mem_cons_self),
    paint_digits _ _ _ fun d hd => hds d (List.mem_cons_of_mem c hd)]
  rw [Nat.ofDigitChars_cons] at hv
  exact congrArg (fun n => some (TerminalRow.mk finished cells column (.number (some n)))) hv

/-- The sequence that moves right moves by as many columns, up to the greatest number. Nothing is
written for no columns, since a number 0 would still move by one. -/
theorem paint_forward (n : Nat) :
    paint ⟨finished, cells, column, .none⟩ (Text.utf8 (Escape.forward n)) =
      some ⟨finished, cells, column + min n Escape.countLimit, .none⟩ := by
  unfold Escape.forward
  split
  · rename_i hn
    subst hn
    rw [Nat.zero_min]
    rfl
  · rename_i hn
    have hb : paint ⟨finished, cells, column, .none⟩ (Text.utf8 ['\x1b', '[']) =
        some ⟨finished, cells, column, .number none⟩ := rfl
    have hc (m : Nat) : paint ⟨finished, cells, column, .number (some m)⟩ (Text.utf8 ['C']) =
        some ⟨finished, cells, column + max m 1, .none⟩ := rfl
    have hm : max (min n Escape.countLimit) 1 = min n Escape.countLimit := by
      unfold Escape.countLimit
      omega
    show paint _ (Text.utf8 (['\x1b', '['] ++ (Text.decimal _ ++ ['C']))) = _
    rw [Text.utf8_append, paint_append_of hb, Text.utf8_append,
      paint_append_of (paint_decimal _ _ _ _), hc, hm]

end TerminalRow
end LineRepl
