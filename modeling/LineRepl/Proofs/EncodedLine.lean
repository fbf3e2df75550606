import LineRepl.Proofs.SplitLine
import LineRepl.Proofs.StoredBytes

/-! The line being typed as it is kept in memory: in UTF-8, with a cursor that counts characters. Each
edit finds the bytes it is about by going through the characters once more, and it may only cut
between two of them. After any edits all cuts are allowed, and the bytes are those of the text on the
two sides of the cursor. -/
namespace LineRepl

/-! ## Characters in bytes -/

/-- Bytes from one offset to another. -/
structure ByteRange where
  start : Nat
  stop : Nat
  deriving DecidableEq, Repr

namespace Bytes

/-- Where character `i` begins; the end of the bytes if there are not so many. -/
def charPlace : Bytes → Nat → Nat
  | [], _ => 0
  | b :: r, 0 => if b.IsUTF8FirstByte then 0 else charPlace r 0 + 1
  | b :: r, i + 1 => charPlace r (if b.IsUTF8FirstByte then i else i + 1) + 1

def charCount (data : Bytes) : Nat := data.countP fun b => b.IsUTF8FirstByte

/-- An offset at which no character is cut in two. -/
def Boundary (data : Bytes) (i : Nat) : Prop :=
  i = 0 ∨ i = data.length ∨ (data[i]?.any fun b => b.IsUTF8FirstByte) = true

instance (data : Bytes) (i : Nat) : Decidable (data.Boundary i) := inferInstanceAs (Decidable (_ ∨ _))

end Bytes

/-- The range can be replaced in these bytes. -/
structure ByteRange.Fits (range : ByteRange) (data : Bytes) : Prop where
  start : data.Boundary range.start
  stop : data.Boundary range.stop
  ordered : range.start ≤ range.stop
  within : range.stop ≤ data.length

instance (range : ByteRange) (data : Bytes) : Decidable (range.Fits data) :=
  decidable_of_iff (data.Boundary range.start ∧ data.Boundary range.stop ∧
      range.start ≤ range.stop ∧ range.stop ≤ data.length)
    ⟨fun h => ⟨h.1, h.2.1, h.2.2.1, h.2.2.2⟩, fun h => ⟨h.start, h.stop, h.ordered, h.within⟩⟩

/-- Puts new bytes in place of a range. A range that does not fit is refused. -/
def Bytes.replaceRange (data : Bytes) (range : ByteRange) (new : Bytes) : Option Bytes :=
  if range.Fits data then some (data.take range.start ++ new ++ data.drop range.stop) else none

theorem Bytes.fits_of_replaceRange {data data' new : Bytes} {range : ByteRange}
    (h : data.replaceRange range new = some data') : range.Fits data := by
  unfold replaceRange at h
  split at h
  · assumption
  · cases h

namespace Text

open Bytes

theorem exists_encode_cons (c : Char) : ∃ b x, String.utf8EncodeChar c = b :: x ∧
    b.IsUTF8FirstByte ∧ ∀ d ∈ x, ¬ d.IsUTF8FirstByte := by
  obtain ⟨b, x, he⟩ := List.exists_cons_of_ne_nil (String.utf8EncodeChar_ne_nil (c := c))
  have first {i : Nat} (hi : i < (b :: x).length) : (b :: x)[i].IsUTF8FirstByte ↔ i = 0 := by
    simp only [← he]
    exact UInt8.isUTF8FirstByte_getElem_utf8EncodeChar
  refine ⟨b, x, he, (first (Nat.zero_lt_succ _)).mpr rfl, ?_⟩
  intro d hd hf
  obtain ⟨i, hi, rfl⟩ := List.mem_iff_getElem.mp hd
  exact Nat.succ_ne_zero i ((first (Nat.succ_lt_succ hi)).mp hf)

theorem isEmpty_utf8 (t : Text) : t.utf8.isEmpty = t.isEmpty := by
  cases t with
  | nil => rfl
  | cons c r =>
    obtain ⟨b, x, he, -⟩ := exists_encode_cons c
    rw [utf8_cons, he]
    rfl

theorem charPlace_cons_of_not {b : UInt8} (hb : ¬ b.IsUTF8FirstByte) (r : Bytes) (i : Nat) :
    charPlace (b :: r) i = charPlace r i + 1 := by
  cases i with
  | zero => rw [charPlace, if_neg hb]
  | succ i => rw [charPlace, if_neg hb]

theorem charPlace_append {x : Bytes} (hx : ∀ b ∈ x, ¬ b.IsUTF8FirstByte) (y : Bytes) (i : Nat) :
    charPlace (x ++ y) i = x.length + charPlace y i := by
  induction x with
  | nil => simp
  | cons b x ih =>
    have hx' (d : UInt8) (hd : d ∈ x) : ¬ d.IsUTF8FirstByte := hx d (List.mem_cons_of_mem b hd)
    rw [List.cons_append, charPlace_cons_of_not (hx b List.mem_cons_self), ih hx', List.length_cons,
      Nat.add_right_comm]

theorem charPlace_zero (t : Text) : charPlace t.utf8 0 = 0 := by
  cases t with
  | nil => rfl
  | cons c r =>
    obtain ⟨b, x, he, hb, -⟩ := exists_encode_cons c
    rw [utf8_cons, he, List.cons_append, charPlace, if_pos hb]

/-- A character begins where those before it end. -/
theorem charPlace_utf8 (a b : Text) : charPlace (utf8 (a ++ b)) a.length = byteSize a := by
  induction a with
  | nil => exact charPlace_zero b
  | cons c a ih =>
    obtain ⟨d, x, he, hd, hx⟩ := exists_encode_cons c
    have hsize : c.utf8Size = x.length + 1 := by
      rw [← String.length_utf8EncodeChar, he, List.length_cons]
    rw [List.cons_append, utf8_cons, he, List.cons_append, List.length_cons, charPlace, if_pos hd]
    simp only [charPlace_append hx, ih, byteSize, hsize]
    omega

example : (Text.utf8 "aéz".toList).charPlace 2 = 3 := by decide

theorem charCount_utf8 (t : Text) : charCount t.utf8 = t.length := by
  induction t with
  | nil => rfl
  | cons c r ih =>
    obtain ⟨b, x, he, hb, hx⟩ := exists_encode_cons c
    have hrest : x.countP (fun b => b.IsUTF8FirstByte) = 0 := by
      simpa [List.countP_eq_zero] using hx
    unfold charCount at ih ⊢
    rw [utf8_cons, he, List.cons_append, List.countP_cons_of_pos (by simpa using hb),
      List.countP_append, hrest, ih, List.length_cons, Nat.zero_add]

theorem boundary_utf8 (a b : Text) : Boundary (utf8 (a ++ b)) (byteSize a) := by
  cases b with
  | nil => exact .inr (.inl (by rw [List.append_nil, length_utf8]))
  | cons c b =>
    obtain ⟨d, x, he, hd, -⟩ := exists_encode_cons c
    refine .inr (.inr ?_)
    rw [utf8_append, ← length_utf8, List.getElem?_append_right (Nat.le_refl _), Nat.sub_self,
      utf8_cons, he]
    simpa using hd

theorem fits_utf8 (a old b : Text) :
    ByteRange.Fits ⟨byteSize a, byteSize (a ++ old)⟩ (utf8 (a ++ old ++ b)) where
  start := List.append_assoc a old b ▸ boundary_utf8 a (old ++ b)
  stop := boundary_utf8 (a ++ old) b
  ordered := by
    rw [byteSize_append]
    exact Nat.le_add_right _ _
  within := by
    rw [length_utf8, byteSize_append (a ++ old)]
    exact Nat.le_add_right _ _

/-- Characters are replaced by replacing their bytes. -/
theorem replaceRange_utf8 (a old b new : Text) :
    replaceRange (utf8 (a ++ old ++ b)) ⟨byteSize a, byteSize (a ++ old)⟩ new.utf8 =
      some (utf8 (a ++ new ++ b)) := by
  have htake : (utf8 (a ++ old ++ b)).take (byteSize a) = utf8 a := by
    rw [List.append_assoc, take_utf8]
  rw [replaceRange, if_pos (fits_utf8 a old b), htake, drop_utf8, utf8_append, utf8_append]

end Text

/-! ## Edits -/

/-- The line being typed, in UTF-8. The cursor counts characters. -/
structure EncodedLine where
  data : Bytes := []
  cursor : Nat := 0
  deriving DecidableEq, Repr

namespace EncodedLine

/-- Where a character is put. -/
def insertion (l : EncodedLine) : ByteRange :=
  ⟨l.data.charPlace l.cursor, l.data.charPlace l.cursor⟩

/-- The character before the cursor, or the first one when the cursor is at the start. -/
def erasure (l : EncodedLine) : ByteRange :=
  ⟨l.data.charPlace (max l.cursor 1 - 1), l.data.charPlace (max l.cursor 1)⟩

/-- The character at the cursor. -/
def removal (l : EncodedLine) : ByteRange :=
  ⟨l.data.charPlace l.cursor, l.data.charPlace (l.cursor + 1)⟩

def insert (c : Char) (l : EncodedLine) : Option EncodedLine :=
  (l.data.replaceRange l.insertion (Text.utf8 [c])).map (⟨·, l.cursor + 1⟩)

/-- Drops the character before the cursor, or the first one, and tells whether there was one. -/
def backspace (l : EncodedLine) : Option (Bool × EncodedLine) :=
  if l.data.isEmpty then some (false, l)
  else (l.data.replaceRange l.erasure []).map (true, ⟨·, max l.cursor 1 - 1⟩)

/-- Drops the character at the cursor, and tells whether there was one. -/
def deleteForward (l : EncodedLine) : Option (Bool × EncodedLine) :=
  if l.data.charCount ≤ l.cursor then some (false, l)
  else (l.data.replaceRange l.removal []).map (true, ⟨·, l.cursor⟩)

def moveLeft (l : EncodedLine) : EncodedLine := { l with cursor := l.cursor - 1 }

def moveRight (l : EncodedLine) : EncodedLine :=
  if l.cursor < l.data.charCount then { l with cursor := l.cursor + 1 } else l

/-- A line with the cursor at its end. -/
def ofText (t : Text) : EncodedLine := ⟨t.utf8, t.utf8.charCount⟩

end EncodedLine

/-- All cuts that an edit of the line can make are allowed. -/
structure EncodedLine.Cuttable (l : EncodedLine) : Prop where
  insertion : l.insertion.Fits l.data
  erasure : l.data.isEmpty = false → l.erasure.Fits l.data
  removal : l.cursor < l.data.charCount → l.removal.Fits l.data

/-- A line in UTF-8. -/
def EditLine.encode (l : EditLine) : EncodedLine := ⟨l.text.utf8, l.cursor⟩

/-- What can be done to the line being typed. -/
inductive LineEdit
  | insert (c : Char)
  | replace (t : Text)
  | backspace
  | deleteForward
  | moveLeft
  | moveRight
  deriving DecidableEq, Repr

namespace LineEdit

/-- The line after an edit, and after a deletion whether it changed the line. -/
def onLine (l : EditLine) : LineEdit → Option Bool × EditLine
  | insert c => (none, l.insert c)
  | replace t => (none, .ofText t)
  | backspace => (some l.canBackspace, l.backspace)
  | deleteForward => (some l.canDeleteForward, l.deleteForward)
  | moveLeft => (none, l.moveLeft)
  | moveRight => (none, l.moveRight)

/-- The same in UTF-8. There is no line after a cut that is refused. -/
def onEncoded (l : EncodedLine) : LineEdit → Option (Option Bool × EncodedLine)
  | insert c => (l.insert c).map (none, ·)
  | replace t => some (none, .ofText t)
  | backspace => l.backspace.map fun (changed, l) => (some changed, l)
  | deleteForward => l.deleteForward.map fun (changed, l) => (some changed, l)
  | moveLeft => some (none, l.moveLeft)
  | moveRight => some (none, l.moveRight)

/-- The same on the two sides of the cursor. -/
def onSides (s : SplitLine) : LineEdit → SplitLine
  | insert c => s.insert c
  | replace t => .ofText t
  | backspace => s.backspace
  | deleteForward => s.deleteForward
  | moveLeft => s.moveLeft
  | moveRight => s.moveRight

end LineEdit

namespace SplitLine

open Text

/-! ## Where the cuts are -/

theorem encode_toLine (before after : Text) : (toLine ⟨before, after⟩).encode =
    ⟨utf8 (before.reverse ++ after), before.length⟩ := rfl

/-- The cursor is where the text before it ends. -/
theorem charPlace_cursor (before after : Text) :
    (utf8 (before.reverse ++ after)).charPlace before.length = byteSize before.reverse := by
  rw [← charPlace_utf8, List.length_reverse]

theorem insertion_toLine (before after : Text) : (toLine ⟨before, after⟩).encode.insertion =
    ⟨byteSize before.reverse, byteSize (before.reverse ++ [])⟩ := by
  rw [List.append_nil, EncodedLine.insertion, encode_toLine, charPlace_cursor]

theorem erasure_toLine (c : Char) (before after : Text) :
    (toLine ⟨c :: before, after⟩).encode.erasure =
      ⟨byteSize before.reverse, byteSize (before.reverse ++ [c])⟩ := by
  have hm : max (before.length + 1) 1 = before.length + 1 := by omega
  have hs : (utf8 ((c :: before).reverse ++ after)).charPlace before.length =
      byteSize before.reverse := by
    rw [List.reverse_cons, List.append_assoc, charPlace_cursor]
  rw [EncodedLine.erasure, encode_toLine, List.length_cons, hm, Nat.add_sub_cancel, hs,
    ← List.length_cons, charPlace_cursor, List.reverse_cons]

theorem erasure_toLine_start (c : Char) (after : Text) : (toLine ⟨[], c :: after⟩).encode.erasure =
    ⟨byteSize [], byteSize ([] ++ [c])⟩ := by
  have hs : (utf8 (c :: after)).charPlace 1 = byteSize [c] := charPlace_utf8 [c] after
  have h0 : (utf8 (c :: after)).charPlace 0 = byteSize [] := charPlace_utf8 [] (c :: after)
  show ByteRange.mk ((utf8 (c :: after)).charPlace 0) ((utf8 (c :: after)).charPlace 1) = _
  rw [h0, hs]
  rfl

theorem removal_toLine (c : Char) (before after : Text) :
    (toLine ⟨before, c :: after⟩).encode.removal =
      ⟨byteSize before.reverse, byteSize (before.reverse ++ [c])⟩ := by
  have hs : (utf8 (before.reverse ++ c :: after)).charPlace (before.length + 1) =
      byteSize (before.reverse ++ [c]) := by
    rw [← List.reverse_cons, ← List.length_cons, ← charPlace_cursor, List.reverse_cons,
      List.append_assoc]
    rfl
  rw [EncodedLine.removal, encode_toLine, charPlace_cursor, hs]

/-! ## What the cuts do -/

theorem insertion_replaced (c : Char) (s : SplitLine) :
    s.toLine.encode.data.replaceRange s.toLine.encode.insertion (utf8 [c]) =
      some (s.insert c).text.utf8 := by
  obtain ⟨before, after⟩ := s
  have hr := replaceRange_utf8 before.reverse [] after [c]
  rw [List.append_nil] at hr
  rw [insertion_toLine, List.append_nil, encode_toLine, hr, insert, text, List.reverse_cons]

theorem erasure_replaced {s : SplitLine} (h : s.text.isEmpty = false) :
    s.toLine.encode.data.replaceRange s.toLine.encode.erasure [] = some s.backspace.text.utf8 := by
  match s with
  | ⟨[], []⟩ => cases h
  | ⟨[], c :: after⟩ =>
    rw [erasure_toLine_start]
    exact replaceRange_utf8 [] [c] after []
  | ⟨c :: before, after⟩ =>
    have hr := replaceRange_utf8 before.reverse [c] after []
    rw [erasure_toLine, encode_toLine, List.reverse_cons, backspace, text]
    rwa [List.append_nil] at hr

theorem removal_replaced {s : SplitLine} (h : s.before.length < s.text.length) :
    s.toLine.encode.data.replaceRange s.toLine.encode.removal [] =
      some s.deleteForward.text.utf8 := by
  match s with
  | ⟨before, []⟩ => exact absurd rfl ((lt_length_toLine before []).mp h)
  | ⟨before, c :: after⟩ =>
    have hr := replaceRange_utf8 before.reverse [c] after []
    rw [removal_toLine, encode_toLine, deleteForward, text, List.tail_cons]
    rwa [List.append_assoc, List.append_nil] at hr

theorem isEmpty_encode (s : SplitLine) : s.toLine.encode.data.isEmpty = s.text.isEmpty :=
  isEmpty_utf8 s.text

theorem charCount_encode (s : SplitLine) : s.toLine.encode.data.charCount = s.text.length :=
  charCount_utf8 s.text

/-- No edit of a line cuts a character in two. -/
theorem cuttable (s : SplitLine) : s.toLine.encode.Cuttable where
  -- what character is put in does not matter to the cut
  insertion := Bytes.fits_of_replaceRange (insertion_replaced ' ' s)
  erasure h := Bytes.fits_of_replaceRange (erasure_replaced ((isEmpty_encode s).symm.trans h))
  removal h := Bytes.fits_of_replaceRange (removal_replaced (charCount_encode s ▸ h))

/-! ## What the edits do -/

theorem insert_encode (c : Char) (s : SplitLine) :
    s.toLine.encode.insert c = some (s.insert c).toLine.encode := by
  rw [EncodedLine.insert, insertion_replaced]
  rfl

theorem length_before_backspace (s : SplitLine) :
    max s.before.length 1 - 1 = s.backspace.before.length := by
  match s with
  | ⟨[], after⟩ => rfl
  | ⟨c :: before, after⟩ =>
    show max (before.length + 1) 1 - 1 = before.length
    omega

theorem backspace_encode (s : SplitLine) : s.toLine.encode.backspace =
    some (s.toLine.canBackspace, s.backspace.toLine.encode) := by
  rw [EncodedLine.backspace, isEmpty_encode]
  cases h : s.text.isEmpty with
  | true =>
    obtain ⟨before, after⟩ := s
    obtain ⟨rfl, rfl⟩ : before = [] ∧ after = [] := by simpa [text] using h
    rfl
  | false =>
    have hc : s.toLine.canBackspace = true := congrArg (!·) h
    rw [erasure_replaced h, hc]
    show some (true, EncodedLine.mk s.backspace.text.utf8 (max s.before.length 1 - 1)) = _
    rw [length_before_backspace]
    rfl

theorem deleteForward_encode (s : SplitLine) : s.toLine.encode.deleteForward =
    some (s.toLine.canDeleteForward, s.deleteForward.toLine.encode) := by
  rw [EncodedLine.deleteForward, charCount_encode]
  by_cases h : s.before.length < s.text.length
  · have hc : s.toLine.canDeleteForward = true := decide_eq_true h
    have hlt : ¬ s.text.length ≤ s.toLine.encode.cursor := Nat.not_le_of_lt h
    rw [if_neg hlt, removal_replaced h, hc]
    rfl
  · have hc : s.toLine.canDeleteForward = false := decide_eq_false h
    have hafter : s.after = [] :=
      Decidable.not_not.mp (mt (lt_length_toLine s.before s.after).mpr h)
    have hsame : s.deleteForward = s := by
      rw [deleteForward, hafter, List.tail_nil, ← hafter]
    have hle : s.text.length ≤ s.toLine.encode.cursor := Nat.le_of_not_lt h
    rw [if_pos hle, hc, hsame]

theorem canBackspace_toLine (s : SplitLine) : s.toLine.canBackspace = !s.text.isEmpty := rfl

theorem canDeleteForward_toLine (before after : Text) :
    (toLine ⟨before, after⟩).canDeleteForward = !after.isEmpty := by
  rw [EditLine.canDeleteForward, toLine_mk, decide_eq_decide.mpr (lt_length_toLine before after)]
  cases after <;> rfl

theorem canBackspace_iff (s : SplitLine) :
    s.toLine.canBackspace = true ↔ s.backspace.text ≠ s.text := by
  rw [canBackspace_toLine]
  match s with
  | ⟨[], []⟩ => simp [text, backspace]
  | ⟨[], c :: after⟩ => simp [text, backspace]
  | ⟨c :: before, after⟩ => simp [text, backspace]

theorem canDeleteForward_iff (s : SplitLine) :
    s.toLine.canDeleteForward = true ↔ s.deleteForward.text ≠ s.text := by
  obtain ⟨before, after⟩ := s
  rw [canDeleteForward_toLine]
  cases after with
  | nil => simp [text, deleteForward]
  | cons c after => simp [text, deleteForward]

theorem moveRight_encode (l : EditLine) : l.encode.moveRight = l.moveRight.encode := by
  have hc : l.encode.data.charCount = l.text.length := charCount_utf8 l.text
  rw [EncodedLine.moveRight, EditLine.moveRight, hc]
  by_cases h : l.cursor < l.text.length
  · rw [if_pos h]
    exact if_pos h
  · rw [if_neg h]
    exact if_neg h

theorem ofText_encode (t : Text) : EncodedLine.ofText t = (EditLine.ofText t).encode := by
  rw [EncodedLine.ofText, charCount_utf8]
  rfl

end SplitLine

namespace LineEdit

variable {s : SplitLine}

theorem onLine_toLine (e : LineEdit) (s : SplitLine) :
    (e.onLine s.toLine).2 = (e.onSides s).toLine := by
  cases e with
  | insert c => exact SplitLine.insert_toLine c s
  | replace t => exact (SplitLine.ofText_toLine t).symm
  | backspace => exact SplitLine.backspace_toLine s
  | deleteForward => exact SplitLine.deleteForward_toLine s
  | moveLeft => exact SplitLine.moveLeft_toLine s
  | moveRight => exact SplitLine.moveRight_toLine s

/-- One edit of the bytes. No cut is refused. -/
theorem onEncoded_toLine (e : LineEdit) (s : SplitLine) : e.onEncoded s.toLine.encode =
    some ((e.onLine s.toLine).1, (e.onLine s.toLine).2.encode) := by
  rw [onLine_toLine]
  cases e with
  | insert c => exact congrArg (Option.map _) (SplitLine.insert_encode c s)
  | replace t =>
    show some (none, EncodedLine.ofText t) = some (none, (SplitLine.ofText t).toLine.encode)
    rw [SplitLine.ofText_toLine, SplitLine.ofText_encode]
  | backspace => exact congrArg (Option.map _) (SplitLine.backspace_encode s)
  | deleteForward => exact congrArg (Option.map _) (SplitLine.deleteForward_encode s)
  | moveLeft => exact congrArg (fun l => some (none, l.encode)) (SplitLine.moveLeft_toLine s)
  | moveRight =>
    show some (none, s.toLine.encode.moveRight) = some (none, s.moveRight.toLine.encode)
    rw [SplitLine.moveRight_encode, SplitLine.moveRight_toLine]

/-- Many edits of the bytes. -/
theorem foldlM_onEncoded (edits : List LineEdit) (s : SplitLine) :
    edits.foldlM (fun d e => (e.onEncoded d).map Prod.snd) s.toLine.encode =
      some (edits.foldl (fun s e => e.onSides s) s).toLine.encode := by
  induction edits generalizing s with
  | nil => rfl
  | cons e edits ih =>
    rw [List.foldlM_cons, onEncoded_toLine, onLine_toLine, List.foldl_cons, ← ih]
    rfl

theorem foldl_onLine (edits : List LineEdit) (s : SplitLine) :
    edits.foldl (fun l e => (e.onLine l).2) s.toLine =
      (edits.foldl (fun s e => e.onSides s) s).toLine := by
  induction edits generalizing s with
  | nil => rfl
  | cons e edits ih => rw [List.foldl_cons, onLine_toLine, List.foldl_cons, ih]

/-- A deletion tells whether the text has changed. -/
theorem changed_iff {e : LineEdit} {changed : Bool} (h : (e.onLine s.toLine).1 = some changed) :
    changed = true ↔ (e.onLine s.toLine).2.text ≠ s.toLine.text := by
  rw [onLine_toLine]
  cases e with
  | backspace =>
    obtain rfl : s.toLine.canBackspace = changed := Option.some.inj h
    exact s.canBackspace_iff
  | deleteForward =>
    obtain rfl : s.toLine.canDeleteForward = changed := Option.some.inj h
    exact s.canDeleteForward_iff
  | _ => cases h

end LineEdit

/-- **The line being typed is a zipper of characters.** After any edits of the empty line its text is
what stands on the two sides of the cursor, which counts the characters before it. In UTF-8 the same
edits cut between characters only, so none is refused, and they leave the bytes of the same text; a
deletion tells truly whether the text has changed, and backspace takes back an insertion. -/
theorem edits_zip (edits : List LineEdit) :
    let s : SplitLine := edits.foldl (fun s e => e.onSides s) {}
    let l : EditLine := edits.foldl (fun l e => (e.onLine l).2) {}
    l.text = s.before.reverse ++ s.after ∧ l.cursor = s.before.length ∧ l.cursor ≤ l.text.length ∧
      edits.foldlM (fun d e => (e.onEncoded d).map Prod.snd) {} = some l.encode ∧
      l.encode.Cuttable ∧
      (∀ e : LineEdit, e.onEncoded l.encode = some ((e.onLine l).1, (e.onLine l).2.encode)) ∧
      (∀ (e : LineEdit) (changed : Bool), (e.onLine l).1 = some changed →
        (changed = true ↔ (e.onLine l).2.text ≠ l.text)) ∧
      ∀ c, (l.insert c).backspace = l := by
  intro s l
  have hl : l = s.toLine := LineEdit.foldl_onLine edits {}
  have hd := LineEdit.foldlM_onEncoded edits {}
  rw [hl]
  refine ⟨rfl, rfl, ?_, hd, s.cuttable, fun e => e.onEncoded_toLine s, fun _ _ => LineEdit.changed_iff,
    fun c => ?_⟩
  · show s.before.length ≤ (s.before.reverse ++ s.after).length
    rw [List.length_append, List.length_reverse]
    exact Nat.le_add_right _ _
  · rw [SplitLine.insert_toLine, SplitLine.backspace_toLine]
    rfl

end LineRepl
