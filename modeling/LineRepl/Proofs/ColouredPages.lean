import LineRepl.Proofs.StoredBytes
import LineRepl.Terminal.Screen

/-! Pages in colour and without. What is shown in colour is what is shown without, with renditions of
text put in between, so it is read the same once these are taken out again. A page may hold sequences
of its own, from the program text or from other programs; they are text of the page and stay. The row of
a listing is cut by bytes behind its number, and this cut is never inside a character, since as many
characters of one byte stand at its front. -/
namespace LineRepl

namespace Text

/-- Text of characters that are stored in one byte each. -/
theorem byteSize_eq_length {t : Text} (h : ∀ c ∈ t, c.utf8Size = 1) : byteSize t = t.length := by
  induction t with
  | nil => rfl
  | cons c r ih =>
    rw [byteSize, h c List.mem_cons_self, ih fun d hd => h d (List.mem_cons_of_mem c hd),
      List.length_cons, Nat.add_comm]

theorem length_centre (width : Nat) (t : Text) : width ≤ (centre width t).length := by
  simp only [centre, List.length_append, List.length_replicate]
  omega

theorem mem_centre {width : Nat} {t : Text} {c : Char} (h : c ∈ centre width t) :
    c = ' ' ∨ c ∈ t := by
  simp only [centre, List.mem_append, List.mem_replicate] at h
  obtain (⟨-, hc⟩ | hc) | ⟨-, hc⟩ := h
  · exact .inl hc
  · exact .inr hc
  · exact .inl hc

theorem utf8Size_of_mem_decimal {n : Nat} {c : Char} (h : c ∈ decimal n) : c.utf8Size = 1 := by
  have hd : c.isDigit = true := Nat.isDigit_of_mem_toDigits (by decide) (by decide) h
  simp only [Char.isDigit, Bool.and_eq_true, decide_eq_true_eq] at hd
  exact Char.utf8Size_eq_one_iff.mpr (UInt32.le_trans hd.2 (by decide))

end Text

namespace Screen

/-! ## Cutting a row -/

/-- As many bytes as the number of a row takes at least are as many characters, whatever the number and
the line. -/
theorem cutAt_row (number : Nat) (line : Text) :
    Text.cutAt numberWidth (row number line) =
      some ((row number line).take numberWidth, (row number line).drop numberWidth) := by
  have hwidth := Text.length_centre numberWidth (Text.decimal number)
  have htake : (row number line).take numberWidth =
      (Text.centre numberWidth (Text.decimal number)).take numberWidth := by
    rw [row, List.append_assoc, List.take_append_of_le_length hwidth]
  have hsize : Text.byteSize ((row number line).take numberWidth) = numberWidth := by
    rw [Text.byteSize_eq_length, htake, List.length_take, Nat.min_eq_left hwidth]
    intro c hc
    rw [htake] at hc
    obtain rfl | hc := Text.mem_centre (List.mem_of_mem_take hc)
    · rfl
    · exact Text.utf8Size_of_mem_decimal hc
  have hcut := Text.cutAt_append ((row number line).take numberWidth)
    ((row number line).drop numberWidth)
  rwa [hsize, List.take_append_drop] at hcut

/-- A row of a listing, cut where the bytes of its number end. There is none when this is inside a
character. -/
def cutRow? (colour : Bool) (number : Nat) (line : Text) : Option Text :=
  if colour then
    (Text.cutAt numberWidth (row number line)).map fun (front, rest) =>
      styled true numberStyle front ++ rest ++ ['\n']
  else some (row number line ++ ['\n'])

/-- Numbered rows from a first number on, each cut by bytes. -/
def cutRows? (colour : Bool) (number : Nat) : List Text → Option Text
  | [] => some []
  | line :: rest => do
    let first ← cutRow? colour number line
    let others ← cutRows? colour (number + 1) rest
    pure (first ++ others)

theorem cutRow?_eq (colour : Bool) (number : Nat) (line : Text) :
    cutRow? colour number line = some (listingRow colour number line) := by
  cases colour with
  | true => rw [cutRow?, if_pos rfl, cutAt_row]; rfl
  | false =>
    have hrow : listingRow false number line = row number line ++ ['\n'] :=
      congrArg (· ++ ['\n']) (List.take_append_drop numberWidth _)
    rw [hrow]
    rfl

theorem cutRows?_eq (colour : Bool) (number : Nat) (lines : List Text) :
    cutRows? colour number lines = some (listingFrom colour number lines) := by
  induction lines generalizing number with
  | nil => rfl
  | cons line rest ih => rw [cutRows?, cutRow?_eq, ih]; rfl

example : Text.cutAt numberWidth (row 12345 ['é']) = some (['1', '2', '3', '4'], "5| é".toList) := by
  decide

/-! ## Taking renditions out -/

/-- A run of what is written: text of the page, or a rendition that was put in. -/
inductive Span
  | text (t : Text)
  | rendition (parameters : Text) (numbers : (parameters.all fun c => c.isDigit || c == ';') = true)

namespace Span

def written : Span → Text
  | text t => t
  | rendition parameters _ => Escape.rendition parameters

def isText : Span → Bool
  | text _ => true
  | rendition .. => false

/-- What is sent for a page. -/
def bytes (spans : List Span) : Bytes := spans.flatMap fun s => s.written.utf8

theorem bytes_eq (spans : List Span) : bytes spans = Text.utf8 (spans.flatMap written) :=
  List.flatMap_assoc.symm

end Span

/-- The second text is the first one with renditions put in. -/
def Tinted (plain tinted : Text) : Prop :=
  ∃ spans : List Span, tinted = spans.flatMap Span.written ∧
    plain = (spans.filter Span.isText).flatMap Span.written

variable {p q c d : Text}

theorem Tinted.same (t : Text) : Tinted t t :=
  ⟨[.text t], (List.append_nil t).symm, (List.append_nil t).symm⟩

theorem Tinted.rendition {parameters : Text}
    (h : (parameters.all fun c => c.isDigit || c == ';') = true) :
    Tinted [] (Escape.rendition parameters) :=
  ⟨[.rendition parameters h], (List.append_nil _).symm, rfl⟩

theorem Tinted.append (h : Tinted p c) (h' : Tinted q d) : Tinted (p ++ q) (c ++ d) := by
  obtain ⟨spans, rfl, rfl⟩ := h
  obtain ⟨spans', rfl, rfl⟩ := h'
  exact ⟨spans ++ spans', List.flatMap_append.symm,
    by rw [List.filter_append, List.flatMap_append]⟩

theorem Tinted.flatMap {α : Type} {f g : α → Text} (h : ∀ a, Tinted (f a) (g a)) (l : List α) :
    Tinted (l.flatMap f) (l.flatMap g) := by
  induction l with
  | nil => exact .same []
  | cons a l ih => exact (h a).append ih

theorem tinted_start (c : Escape.Colour) : Tinted [] c.start := by
  cases c <;> exact .rendition (by decide)

/-- Text in a style is the text with renditions around it. -/
theorem tinted_styled (s : Style) (t : Text) : Tinted (styled false s t) (styled true s t) := by
  have hends {a b : Text} (ha : Tinted [] a) (hb : Tinted [] b) : Tinted t (a ++ t ++ b) := by
    simpa only [List.nil_append, List.append_nil] using (ha.append (.same t)).append hb
  change Tinted t (if s.bold then _ else _)
  split
  · exact hends ((tinted_start _).append (.rendition (by decide))) (.rendition (by decide))
  · exact hends (tinted_start _) (.rendition (by decide))

/-! ## Pages -/

theorem tinted_feed : Tinted ['\n'] ['\n'] := .same _

theorem tinted_banner : Tinted (banner false) (banner true) := by
  have title := tinted_styled titleStyle bannerTitle
  have metadata := tinted_styled metadataStyle Release.current.metadata.toList
  have hint := Tinted.same bannerHint
  exact title.append tinted_feed |>.append metadata |>.append tinted_feed |>.append hint
    |>.append tinted_feed

theorem tinted_listingRow (number : Nat) (line : Text) :
    Tinted (listingRow false number line) (listingRow true number line) := by
  have front := tinted_styled numberStyle ((row number line).take numberWidth)
  have rest := Tinted.same ((row number line).drop numberWidth)
  exact front.append rest |>.append tinted_feed

theorem tinted_listingFrom (number : Nat) (lines : List Text) :
    Tinted (listingFrom false number lines) (listingFrom true number lines) := by
  induction lines generalizing number with
  | nil => exact .same []
  | cons line rest ih => exact (tinted_listingRow number line).append (ih (number + 1))

theorem tinted_helpEntry (c : Command) : Tinted (helpEntry false c) (helpEntry true c) := by
  have usage := tinted_styled usageStyle (Text.padRight usageWidth c.usage.toList)
  have description := Tinted.same c.description.toList
  exact (Tinted.same indent).append usage |>.append description |>.append tinted_feed

theorem tinted_help : Tinted (help false) (help true) := by
  have description := (tinted_styled titleStyle "DESCRIPTION".toList).append tinted_feed
  have body := (description.append (.same indent)).append (.same purpose)
  have commands := tinted_styled titleStyle "COMMANDS".toList
  have entries := Tinted.flatMap tinted_helpEntry Command.all
  exact body.append (.same ['\n', '\n']) |>.append commands |>.append tinted_feed |>.append entries

theorem tinted_diagnostic (s : Style) (label message : Text) :
    Tinted (diagnostic false s label message) (diagnostic true s label message) := by
  have front := tinted_styled s label
  have rest := Tinted.same message
  exact front.append (.same [' ']) |>.append rest |>.append tinted_feed

theorem Showing.tinted (v : Showing) : Tinted (v.page false) (v.page true) := by
  cases v with
  | banner => exact tinted_banner
  | cleared => exact (Tinted.same _).append tinted_banner
  | help => exact tinted_help
  | listing lines => exact tinted_listingFrom 1 lines
  | error message => exact tinted_diagnostic errorStyle _ message
  | warning message => exact tinted_diagnostic warningStyle _ message
  | buildErrors text => exact .same _
  | programOutput text => exact .same _

/-- **Colour never changes text.** Whatever is shown, its bytes in colour are runs of text and of
renditions, and the runs of text alone are its bytes without colour. And the cut behind the number of a
row is a cut between characters, so that each listing has all of its rows. -/
theorem colour_keeps_text :
    (∀ v : Showing, ∃ spans : List Span, Text.utf8 (v.page true) = Span.bytes spans ∧
      Text.utf8 (v.page false) = Span.bytes (spans.filter Span.isText)) ∧
    (∀ number line, ∃ front rest, Text.cutAt numberWidth (row number line) = some (front, rest)) ∧
    ∀ colour lines, cutRows? colour 1 lines = some (listing colour lines) := by
  refine ⟨fun v => ?_, fun number line => ⟨_, _, cutAt_row number line⟩, fun colour lines =>
    cutRows?_eq colour 1 lines⟩
  obtain ⟨spans, htinted, hplain⟩ := v.tinted
  exact ⟨spans, by rw [htinted, Span.bytes_eq], by rw [hplain, Span.bytes_eq]⟩

end Screen
end LineRepl
