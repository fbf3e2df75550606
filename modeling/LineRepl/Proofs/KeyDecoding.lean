import LineRepl.Proofs.Ends
import LineRepl.Terminal.Key

/-! Keys as a table over bytes. A stream that delivers bytes, with interrupted reads among them, and
then ends gives the keys that the table reads off these bytes, and what it still has to deliver are the
bytes after the last key that was read. A byte that was pushed back is one of them. -/
namespace LineRepl

open Attempt

/-- The byte that a reading found. -/
def Reading.byte? : Reading → Option UInt8
  | .byte b => some b
  | _ => none

namespace InputStream

/-- The stream delivers these bytes and then ends. No read of it fails; some may be interrupted. -/
structure Delivers (s : InputStream) (bytes : Bytes) : Prop where
  ends : s.lastError = none
  plain : ∀ r ∈ s.readings, r = .interrupted ∨ ∃ b, r = .byte b
  bytes_eq : s.pushedBack.toList ++ s.readings.filterMap Reading.byte? = bytes

theorem delivers_ofBytes (bytes : Bytes) : (ofBytes bytes).Delivers bytes where
  ends := rfl
  plain r hr := by
    obtain ⟨b, -, rfl⟩ := List.mem_map.mp hr
    exact .inr ⟨b, rfl⟩
  bytes_eq := by
    induction bytes with
    | nil => rfl
    | cons b bytes ih => exact congrArg (b :: ·) ih

/-- Interrupted reads are tried again until a byte or the end is found. -/
theorem settle_plain {readings : List Reading}
    (h : ∀ r ∈ readings, r = .interrupted ∨ ∃ b, r = .byte b) :
    ∃ rest, settle none readings = .ok (readings.filterMap Reading.byte?).head? rest ∧
      (∀ r ∈ rest, r = .interrupted ∨ ∃ b, r = .byte b) ∧
      rest.filterMap Reading.byte? = (readings.filterMap Reading.byte?).tail := by
  induction readings with
  | nil => exact ⟨[], rfl, h, rfl⟩
  | cons r rest ih =>
    have hr := fun r hr => h r (List.mem_cons_of_mem _ hr)
    obtain rfl | ⟨b, rfl⟩ := h r List.mem_cons_self
    · exact ih hr
    · exact ⟨rest, rfl, hr, rfl⟩

theorem nextByte_delivers {s : InputStream} {bytes : Bytes} (h : s.Delivers bytes) :
    ∃ s', nextByte s = .ok bytes.head? s' ∧ s'.Delivers bytes.tail ∧ s'.pushedBack = none := by
  obtain ⟨readings, lastError, pushedBack⟩ := s
  obtain ⟨he, hp, hb⟩ := h
  dsimp only at he hp hb
  subst he hb
  cases pushedBack with
  | some b => exact ⟨_, rfl, ⟨rfl, hp, rfl⟩, rfl⟩
  | none =>
    obtain ⟨rest, hs, hr, ht⟩ := settle_plain hp
    refine ⟨⟨rest, none, none⟩, ?_, ⟨rfl, hr, ht⟩, rfl⟩
    simp only [nextByte, hs, Option.toList_none, List.nil_append]

/-- A byte that is pushed back is delivered again. -/
theorem Delivers.pushBack {s : InputStream} {bytes : Bytes} (h : s.Delivers bytes)
    (hs : s.pushedBack = none) (b : UInt8) : (s.pushBack b).Delivers (b :: bytes) := by
  obtain ⟨he, hp, hb⟩ := h
  refine ⟨he, hp, ?_⟩
  rw [hs] at hb
  exact congrArg (b :: ·) hb

end InputStream

namespace Key

/-- The key that an escape byte and these bytes stand for, and the bytes after it. -/
def escaped : Bytes → Key × Bytes
  | 0x5B :: 0x41 :: rest => (.up, rest)
  | 0x5B :: 0x42 :: rest => (.down, rest)
  | 0x5B :: 0x43 :: rest => (.right, rest)
  | 0x5B :: 0x44 :: rest => (.left, rest)
  | 0x5B :: 0x33 :: 0x7E :: rest => (.deleteForward, rest)
  | _ :: _ :: rest => (.other, rest)
  | _ => (.other, [])

/-- The first key of some bytes, and the bytes after it. -/
def decode : Bytes → Option (Key × Bytes)
  | [] => none
  | 0x1B :: rest => some (escaped rest)
  | 0x0D :: rest | 0x0A :: rest => some (.enter, rest)
  | 0x03 :: rest => some (.interrupt, rest)
  | 0x7F :: rest => some (.backspace, rest)
  | b :: rest => some (if 0x20 ≤ b ∧ b ≤ 0x7E then .char (Char.ofNat b.toNat) else .other, rest)

theorem decode_of_ne_escape {b : UInt8} (h : b ≠ escape) (rest : Bytes) :
    decode (b :: rest) = some (ofByte b, rest) := by
  unfold decode ofByte
  split <;> simp_all [escape]

theorem escaped_arrow {first second : UInt8} {key : Key} (h : arrow? first second = some key)
    (rest : Bytes) : escaped (first :: second :: rest) = (key, rest) := by
  unfold arrow? at h
  unfold escaped
  split <;> simp_all

/-- A sequence that is not in the table gives no key, and its third byte is not part of it. -/
theorem escaped_other {first second : UInt8} {rest : Bytes} (h : arrow? first second = none)
    (hd : ∀ r, first = 0x5B → second = 0x33 → rest ≠ 0x7E :: r) :
    escaped (first :: second :: rest) = (.other, rest) := by
  unfold arrow? at h
  unfold escaped
  split <;> simp_all

theorem escaped_short (b : UInt8) : escaped [b] = (.other, []) := by
  unfold escaped
  split <;> simp_all

theorem suffix_of_escaped (bytes : Bytes) : (escaped bytes).2 <:+ bytes := by
  unfold escaped
  split <;> simp [List.suffix_cons_iff]

/-- A key takes its bytes from the front, and at least one. -/
theorem suffix_of_decode {bytes rest : Bytes} {key : Key} (h : decode bytes = some (key, rest)) :
    rest <:+ bytes.tail := by
  unfold decode at h
  split at h
  case h_2 bytes =>
    have hs := suffix_of_escaped bytes
    rwa [Option.some.inj h] at hs
  all_goals simp_all

theorem length_of_decode {bytes rest : Bytes} {key : Key}
    (h : decode bytes = some (key, rest)) : rest.length < bytes.length := by
  have hs := (suffix_of_decode h).length_le
  cases bytes with
  | nil => cases h
  | cons b bytes => exact Nat.lt_succ_of_le hs

/-! ## Reading -/

theorem readThird_delivers {first second : UInt8} {s : InputStream} {bytes : Bytes}
    (ha : arrow? first second = none) (h : s.Delivers bytes) :
    ∃ s', readThird pushBack first second s = .ok (escaped (first :: second :: bytes)).1 s' ∧
      s'.Delivers (escaped (first :: second :: bytes)).2 := by
  obtain ⟨s', hn, hs, hp⟩ := InputStream.nextByte_delivers h
  simp only [readThird, bind_apply, hn]
  cases bytes with
  | nil =>
    have he : escaped [first, second] = (.other, []) :=
      escaped_other ha fun r _ _ => (List.cons_ne_nil 0x7E r).symm
    rw [he]
    exact ⟨s', rfl, hs⟩
  | cons third rest =>
    by_cases hd : first = 0x5B ∧ second = 0x33 ∧ third = 0x7E
    · obtain ⟨rfl, rfl, rfl⟩ := hd
      exact ⟨s', rfl, hs⟩
    · have he : escaped (first :: second :: third :: rest) = (.other, third :: rest) :=
        escaped_other ha fun _ hf hs ht => hd ⟨hf, hs, (List.cons.inj ht).1⟩
      simp only [List.head?_cons, if_neg hd, bind_apply, pushBack, modify_apply, pure_apply, he]
      exact ⟨_, rfl, hs.pushBack hp third⟩

theorem readEscape_delivers {s : InputStream} {bytes : Bytes} (h : s.Delivers bytes) :
    ∃ s', readEscape pushBack s = .ok (escaped bytes).1 s' ∧ s'.Delivers (escaped bytes).2 := by
  obtain ⟨s₁, h₁, hs₁, -⟩ := InputStream.nextByte_delivers h
  obtain ⟨s₂, h₂, hs₂, -⟩ := InputStream.nextByte_delivers hs₁
  simp only [readEscape, bind_apply, h₁, h₂]
  rcases bytes with _ | ⟨first, _ | ⟨second, rest⟩⟩
  · exact ⟨s₂, rfl, hs₂⟩
  · rw [escaped_short]
    exact ⟨s₂, rfl, hs₂⟩
  · dsimp only [List.head?_cons, List.tail_cons]
    cases ha : arrow? first second with
    | some key =>
      rw [escaped_arrow ha]
      exact ⟨s₂, rfl, hs₂⟩
    | none => exact readThird_delivers ha hs₂

/-- The key that is read is the first one of the bytes to come, and the bytes after it are still to
come. -/
theorem read_delivers {s : InputStream} {bytes : Bytes} (h : s.Delivers bytes) :
    ∃ s', read s = .ok ((decode bytes).map Prod.fst) s' ∧
      s'.Delivers (((decode bytes).map Prod.snd).getD []) := by
  obtain ⟨s', hn, hs, -⟩ := InputStream.nextByte_delivers h
  simp only [read, readVia, bind_apply, hn]
  cases bytes with
  | nil => exact ⟨s', rfl, hs⟩
  | cons b rest =>
    dsimp only [List.head?_cons, List.tail_cons] at hs ⊢
    by_cases hb : b = escape
    · subst hb
      obtain ⟨s₂, hr, hs₂⟩ := readEscape_delivers hs
      simp only [if_true, map_apply, hr]
      exact ⟨s₂, rfl, hs₂⟩
    · rw [if_neg hb, decode_of_ne_escape hb]
      exact ⟨s', rfl, hs⟩

theorem read_of_decode {s : InputStream} {bytes rest : Bytes} {key : Key} (h : s.Delivers bytes)
    (hd : decode bytes = some (key, rest)) : ∃ s', read s = .ok (some key) s' ∧ s'.Delivers rest := by
  obtain ⟨s', hr, hs⟩ := read_delivers h
  rw [hd] at hr hs
  exact ⟨s', hr, hs⟩

end Key
end LineRepl
