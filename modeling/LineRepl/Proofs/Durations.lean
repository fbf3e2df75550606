import LineRepl.Build.Duration
import LineRepl.Proofs.Tokens
import Mathlib.Data.List.Basic

/-! Durations that are written can be read back to the millisecond. A phrase is a number of some unit,
or seconds with three digits for their thousandths; the text of a phrase has no other reading. Of all
phrases for one duration exactly one is plain, and that is the one that is written. -/
namespace LineRepl.Duration

inductive Scale
  | hours | minutes | seconds | milliseconds
  deriving DecidableEq, Repr

namespace Scale

def symbol : Scale → Text
  | hours => "h"
  | minutes => "m"
  | seconds => "s"
  | milliseconds => "ms"

/-- How many milliseconds one of them is. -/
def millis : Scale → Nat
  | hours => 3600 * 1000
  | minutes => 60 * 1000
  | seconds => 1000
  | milliseconds => 1

def ofSymbol? : Text → Option Scale
  | ['h'] => some hours
  | ['m'] => some minutes
  | ['s'] => some seconds
  | ['m', 's'] => some milliseconds
  | _ => none

theorem ofSymbol?_symbol (u : Scale) : ofSymbol? u.symbol = some u := by
  cases u <;> rfl

theorem isDigit_head_symbol (u : Scale) : ∀ c ∈ u.symbol.head?, c.isDigit = false := by
  intro c hc
  cases u <;> cases hc <;> rfl

end Scale

/-- A duration in words. -/
inductive Phrase
  | whole (n : Nat) (unit : Scale)
  /-- Seconds and thousandths of a second. -/
  | split (secs : Nat) (thousandths : Fin 1000)
  deriving DecidableEq, Repr

namespace Phrase

open Text

def text : Phrase → Text
  | whole n unit => decimal n ++ unit.symbol
  | split secs f => decimal secs ++ ('.' :: threeDigits f ++ ['s'])

def millis : Phrase → Nat
  | whole n unit => n * unit.millis
  | split secs f => secs * 1000 + f.val

/-- Reads exactly three digits behind a point, and the unit of seconds. -/
def thousandths? : Text → Option (Fin 1000)
  | ['.', a, b, c, 's'] =>
    if h : isNumber [a, b, c] = true ∧ value [a, b, c] < 1000 then some ⟨value [a, b, c], h.2⟩
    else none
  | _ => none

/-- Reads digits, and goes by what stands behind them. -/
def read? (t : Text) : Option Phrase :=
  let digits := t.takeWhile Char.isDigit
  let rest := t.dropWhile Char.isDigit
  if digits = [] then none
  else match Scale.ofSymbol? rest with
    | some unit => some (whole (value digits) unit)
    | none => (thousandths? rest).map (split (value digits))

/-- A phrase that is written: positive hours, minutes and seconds that are no whole number of the next
unit, milliseconds below a second, and thousandths only where there are some. -/
def Plain : Phrase → Prop
  | whole n .hours => 0 < n
  | whole n .minutes => n % 60 ≠ 0
  | whole n .seconds => n % 60 ≠ 0
  | whole n .milliseconds => n < 1000
  | split secs f => 0 < secs ∧ 0 < f.val

/-! ## Reading -/

theorem spellsNumber_threeDigits (n : Nat) : SpellsNumber n (threeDigits n) := ⟨_, rfl⟩

theorem length_threeDigits {n : Nat} (h : n < 1000) : (threeDigits n).length = 3 := by
  have hle : (decimal n).length ≤ 3 := (Nat.length_toDigits_le_iff (by decide) (by decide)).mpr h
  rw [threeDigits, List.length_append, List.length_replicate]
  omega

theorem thousandths?_threeDigits (f : Fin 1000) :
    thousandths? ('.' :: threeDigits f ++ ['s']) = some f := by
  have hspells := spellsNumber_threeDigits f
  obtain ⟨a, b, c, habc⟩ := List.length_eq_three.mp (length_threeDigits f.isLt)
  rw [habc] at hspells ⊢
  have hvalue : value [a, b, c] < 1000 := by
    rw [hspells.value]
    exact f.isLt
  calc thousandths? ['.', a, b, c, 's'] = some ⟨value [a, b, c], hvalue⟩ :=
        dif_pos ⟨hspells.isNumber, hvalue⟩
    _ = some f := by rw [Option.some.injEq, Fin.ext_iff, ← hspells.value]

/-- Digits in front are read as the number that they spell. -/
theorem read?_decimal_append (n : Nat) {rest : Text}
    (hrest : ∀ c ∈ rest.head?, c.isDigit = false) :
    read? (decimal n ++ rest) = match Scale.ofSymbol? rest with
      | some unit => some (whole n unit)
      | none => (thousandths? rest).map (split n) := by
  have hspells := spellsNumber_decimal n
  rw [read?, takeWhile_append_run hspells.isDigit hrest, dropWhile_append_run hspells.isDigit hrest,
    if_neg hspells.ne_nil, hspells.value]

/-- The text of a phrase is read as that phrase. -/
theorem read?_text (p : Phrase) : read? p.text = some p := by
  cases p with
  | whole n unit => rw [text, read?_decimal_append n unit.isDigit_head_symbol, unit.ofSymbol?_symbol]
  | split secs f =>
    have hno : Scale.ofSymbol? ('.' :: threeDigits f ++ ['s']) = none := rfl
    have hpoint : ∀ c ∈ ('.' :: threeDigits f ++ ['s']).head?, c.isDigit = false := by
      intro c hc
      obtain rfl := Option.some.inj hc
      rfl
    rw [text, read?_decimal_append secs hpoint, hno, thousandths?_threeDigits]
    rfl

theorem text_injective {p q : Phrase} (h : p.text = q.text) : p = q :=
  Option.some.inj ((read?_text p).symm.trans ((congrArg read? h).trans (read?_text q)))

/-! ## Writing -/

/-- Every duration has a plain phrase. -/
theorem exists_plain (n : Nat) : ∃ p : Phrase, p.Plain ∧ p.millis = n := by
  obtain ⟨secs, f, rfl⟩ : ∃ (secs : Nat) (f : Fin 1000), secs * 1000 + f.val = n :=
    ⟨n / 1000, ⟨n % 1000, Nat.mod_lt n (by decide)⟩, Nat.div_add_mod' n 1000⟩
  by_cases hsecs : secs = 0
  · refine ⟨whole f .milliseconds, f.isLt, ?_⟩
    rw [hsecs, Nat.zero_mul, Nat.zero_add]
    exact Nat.mul_one _
  by_cases hf : f.val = 0
  · rw [hf]
    by_cases hhours : 3600 ∣ secs
    · obtain ⟨k, rfl⟩ := hhours
      refine ⟨whole k .hours, Nat.pos_of_ne_zero fun h => hsecs (by rw [h]), ?_⟩
      show k * (3600 * 1000) = _
      omega
    by_cases hminutes : 60 ∣ secs
    · obtain ⟨k, rfl⟩ := hminutes
      refine ⟨whole k .minutes, fun h => hhours ?_, ?_⟩
      · exact Nat.mul_dvd_mul_left 60 (Nat.dvd_of_mod_eq_zero h)
      · show k * (60 * 1000) = _
        omega
    · exact ⟨whole secs .seconds, fun h => hminutes (Nat.dvd_of_mod_eq_zero h), by
        rw [millis, Scale.millis, Nat.add_zero]⟩
  · exact ⟨split secs f, ⟨Nat.pos_of_ne_zero hsecs, Nat.pos_of_ne_zero hf⟩, rfl⟩

/-- Seconds without a fraction are written in the largest unit of which they are a whole number. -/
theorem format_thousand {secs : Nat} (h : secs ≠ 0) : format (secs * 1000) =
    if secs % 3600 = 0 then decimal (secs / 3600) ++ "h"
    else if secs % 60 = 0 then decimal (secs / 60) ++ "m"
    else decimal secs ++ "s" := by
  rw [format, Nat.mul_div_cancel secs (by decide), Nat.mul_mod_left, if_neg h, if_pos rfl]

/-- A plain phrase is how its duration is written. -/
theorem format_millis {p : Phrase} (h : p.Plain) : format p.millis = p.text := by
  cases p with
  | split secs f =>
    obtain ⟨hsecs, hf⟩ := h
    have hdiv : (secs * 1000 + f.val) / 1000 = secs := by omega
    have hmod : (secs * 1000 + f.val) % 1000 = f.val := by omega
    rw [millis, format, hdiv, hmod, if_neg (Nat.ne_of_gt hsecs), if_neg (Nat.ne_of_gt hf),
      List.append_assoc, List.append_assoc]
    rfl
  | whole n unit =>
    cases unit with
    | milliseconds =>
      have hn : n < 1000 := h
      rw [show millis (whole n .milliseconds) = n from Nat.mul_one n, format,
        Nat.div_eq_of_lt hn, if_pos rfl, Nat.mod_eq_of_lt hn]
      rfl
    | seconds =>
      have hn : n % 60 ≠ 0 := h
      rw [millis, Scale.millis, format_thousand (fun h0 => hn (by rw [h0])), if_neg (by omega),
        if_neg hn]
      rfl
    | minutes =>
      have hn : n % 60 ≠ 0 := h
      have hmillis : millis (whole n .minutes) = 60 * n * 1000 := by
        rw [millis, Scale.millis]
        omega
      rw [hmillis, format_thousand (by omega), if_neg (by omega), if_pos (Nat.mul_mod_right 60 n),
        Nat.mul_div_cancel_left n (by decide)]
      rfl
    | hours =>
      have hn : 0 < n := h
      have hmillis : millis (whole n .hours) = 3600 * n * 1000 := by
        rw [millis, Scale.millis]
        omega
      rw [hmillis, format_thousand (by omega), if_pos (Nat.mul_mod_right 3600 n),
        Nat.mul_div_cancel_left n (by decide)]
      rfl

/-- What is written is the text of the one plain phrase. -/
theorem format_eq_text_iff {n : Nat} {p : Phrase} :
    format n = p.text ↔ p.Plain ∧ p.millis = n := by
  obtain ⟨q, hq, rfl⟩ := exists_plain n
  constructor
  · intro h
    obtain rfl := text_injective ((format_millis hq).symm.trans h)
    exact ⟨hq, rfl⟩
  · rintro ⟨hp, hmillis⟩
    rw [← hmillis, format_millis hp]

theorem format_eq_whole_iff {n : Nat} (unit : Scale) :
    (∃ k, format n = decimal k ++ unit.symbol) ↔ ∃ k, (whole k unit).Plain ∧ k * unit.millis = n :=
  exists_congr fun k => format_eq_text_iff (p := whole k unit)

end Phrase

open Phrase

/-- **Nothing is lost at the resolution of a millisecond.** What is written for a duration is read back
as that duration, so no two durations are written alike. Hours are written for whole hours, if there are
any, and minutes for whole minutes that are no whole hours. -/
theorem format_reads_back (n : Nat) :
    (read? (format n)).map millis = some n ∧
    (∀ m, format m = format n ↔ m = n) ∧
    ((∃ k, format n = Text.decimal k ++ "h") ↔ 0 < n ∧ 3600 * 1000 ∣ n) ∧
    ((∃ k, format n = Text.decimal k ++ "m") ↔ 0 < n ∧ 60 * 1000 ∣ n ∧ ¬ 3600 * 1000 ∣ n) := by
  have hread (m : Nat) : (read? (format m)).map millis = some m := by
    obtain ⟨p, hplain, rfl⟩ := exists_plain m
    rw [format_millis hplain, read?_text, Option.map_some]
  refine ⟨hread n, fun m => ⟨fun h => ?_, fun h => by rw [h]⟩, ?_, ?_⟩
  · have hmap := hread m
    rw [h, hread n] at hmap
    exact (Option.some.inj hmap).symm
  · refine (format_eq_whole_iff .hours).trans ⟨?_, ?_⟩
    · rintro ⟨k, hk, rfl⟩
      exact ⟨Nat.mul_pos hk (by decide), Nat.dvd_mul_left _ k⟩
    · rintro ⟨hpos, k, rfl⟩
      exact ⟨k, Nat.pos_of_mul_pos_left hpos, Nat.mul_comm k _⟩
  · -- so many minutes are whole hours exactly if 60 divides their number
    have hdvd (k : Nat) : 3600 * 1000 ∣ k * (60 * 1000) ↔ 60 ∣ k := by
      rw [show 3600 * 1000 = 60 * (60 * 1000) from rfl]
      exact Nat.mul_dvd_mul_iff_right (by decide)
    refine (format_eq_whole_iff .minutes).trans ⟨?_, ?_⟩
    · rintro ⟨k, hk, rfl⟩
      have hk : k % 60 ≠ 0 := hk
      exact ⟨Nat.mul_pos (Nat.pos_of_ne_zero fun h => hk (by rw [h])) (by decide),
        Nat.dvd_mul_left _ k, fun h => hk (Nat.mod_eq_zero_of_dvd ((hdvd k).mp h))⟩
    · rintro ⟨-, ⟨k, rfl⟩, hno⟩
      rw [Nat.mul_comm _ k] at hno ⊢
      exact ⟨k, fun h => hno ((hdvd k).mpr (Nat.dvd_of_mod_eq_zero h)), rfl⟩

example : format 3600050 = "3600.050s" ∧ read? "3600.050s" = some (.split 3600 50) := by decide

end LineRepl.Duration
