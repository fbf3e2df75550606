import LineRepl.Proofs.Offsets
import LineRepl.Store.Disk

/-! Texts as the bytes that a file keeps. Reading these bytes gives the text back, byte offsets into
the one are byte offsets into the other, and a line of the bytes is a line of the text, since the
byte of a line feed is part of no other character. -/
namespace LineRepl.Text

theorem utf8_append (a b : Text) : utf8 (a ++ b) = utf8 a ++ utf8 b := List.flatMap_append

theorem utf8_cons (c : Char) (r : Text) : utf8 (c :: r) = String.utf8EncodeChar c ++ utf8 r :=
  List.flatMap_cons

theorem length_utf8 (t : Text) : (utf8 t).length = byteSize t := by
  induction t with
  | nil => rfl
  | cons c r ih =>
    rw [utf8_cons, List.length_append, String.length_utf8EncodeChar, ih]
    rfl

theorem take_utf8 (a b : Text) : (utf8 (a ++ b)).take (byteSize a) = utf8 a := by
  rw [utf8_append, ← length_utf8, List.take_left]

theorem drop_utf8 (a b : Text) : (utf8 (a ++ b)).drop (byteSize a) = utf8 b := by
  rw [utf8_append, ← length_utf8, List.drop_left]

/-- Stored text can be read. -/
theorem text?_utf8 (t : Text) : Bytes.text? (utf8 t) = some t := by
  have he : (⟨(utf8 t).toArray⟩ : ByteArray) = t.utf8Encode :=
    ByteArray.ext List.data_toByteArray.symm
  have hv : t.utf8Encode.IsValidUTF8 := ByteArray.isValidUTF8_utf8Encode
  rw [Bytes.text?, he, String.fromUTF8?, dif_pos hv, Option.map_some]
  exact congrArg some String.toList_ofList

theorem utf8_injective {t u : Text} (h : utf8 t = utf8 u) : t = u := by
  have ht := text?_utf8 t
  rw [h, text?_utf8] at ht
  exact (Option.some.inj ht).symm

/-- What can be read is stored by these bytes only. -/
theorem utf8_of_text? {d : Bytes} {t : Text} (h : Bytes.text? d = some t) : utf8 t = d := by
  obtain ⟨s, hs, rfl⟩ := Option.map_eq_some_iff.mp h
  have hb : s.toByteArray = ⟨d.toArray⟩ := by
    unfold String.fromUTF8? at hs
    split at hs
    · rw [← Option.some.inj hs]
      rfl
    · cases hs
  have he : (utf8 s.toList).toByteArray = ⟨d.toArray⟩ := by
    rw [← hb, ← String.ofList_toList (s := s), String.toByteArray_ofList, String.toList_ofList]
    rfl
  have hd := congrArg (fun b => b.data.toList) he
  rwa [List.data_toByteArray] at hd

/-! ## Lines of bytes -/

theorem feed_ne {n : Nat} (h : n < 256) (hn : n ≠ 10) : (10 : UInt8) ≠ UInt8.ofNat n := by
  intro e
  have he := congrArg UInt8.toNat e
  rw [UInt8.toNat_ofNat_of_lt' h] at he
  exact hn he.symm

/-- All bytes of a longer character are beyond ASCII. -/
theorem feed_notMem_encode {c : Char} (hc : c ≠ '\n') : 10 ∉ String.utf8EncodeChar c := by
  have hv : c.val.toNat ≠ 10 := fun e => hc (Char.ext (UInt32.toNat_inj.mp e))
  unfold String.utf8EncodeChar
  dsimp only
  split
  · simp only [List.mem_singleton]
    exact feed_ne (by omega) hv
  · split
    · simp only [List.mem_cons, List.not_mem_nil, or_false, not_or]
      exact ⟨feed_ne (by omega) (by omega), feed_ne (by omega) (by omega)⟩
    · split
      · simp only [List.mem_cons, List.not_mem_nil, or_false, not_or]
        exact ⟨feed_ne (by omega) (by omega), feed_ne (by omega) (by omega),
          feed_ne (by omega) (by omega)⟩
      · simp only [List.mem_cons, List.not_mem_nil, or_false, not_or]
        exact ⟨feed_ne (by omega) (by omega), feed_ne (by omega) (by omega),
          feed_ne (by omega) (by omega), feed_ne (by omega) (by omega)⟩

end LineRepl.Text

namespace LineRepl.FileStore

open Text

theorem lineBytes_drop (offset : Nat) (data : Bytes) :
    lineBytes offset data = lineBytes 0 (data.drop offset) := rfl

theorem lineBytes_append {a : Bytes} (h : 10 ∉ a) (b : Bytes) :
    lineBytes 0 (a ++ b) = a ++ lineBytes 0 b := by
  have hi : (a ++ b).idxOf? 10 = (b.idxOf? 10).map (· + a.length) := by
    have ha : a.idxOf? 10 = none := List.idxOf?_eq_none_iff.mpr h
    simp only [List.idxOf?] at ha ⊢
    rw [List.findIdx?_append, ha, Option.none_or]
  simp only [lineBytes, List.drop_zero, hi]
  cases b.idxOf? 10 with
  | none => rfl
  | some i =>
    have hn : i + a.length + 1 = a.length + (i + 1) := by omega
    show (a ++ b).take (i + a.length + 1) = a ++ b.take (i + 1)
    rw [hn, List.take_length_add_append]

theorem lineBytes_utf8 (t : Text) : lineBytes 0 (utf8 t) = utf8 (firstPiece t) := by
  induction t with
  | nil => rfl
  | cons c r ih =>
    by_cases hc : c = '\n'
    · subst hc
      rfl
    · rw [utf8_cons, lineBytes_append (feed_notMem_encode hc), ih, firstPiece, if_neg hc, utf8_cons]

/-- The line of bytes where a line of the text begins is this line. -/
theorem lineBytes_append_utf8 (t u : Text) :
    lineBytes t.byteSize (utf8 (t ++ u)) = utf8 (firstPiece u) := by
  rw [lineBytes_drop, drop_utf8, lineBytes_utf8]

end LineRepl.FileStore
