import LineRepl.Proofs.BufferPages

/-! The rows of a listing. A listing cuts at both kinds of line ends, the index counts line feeds,
and an edit moves stored lines with their terminators. Each row belongs to one stored line, so the
three agree on which line has which number; they differ in whether a carriage return before the line
feed is part of the line. -/
namespace LineRepl

namespace Text

variable {t : Text}

@[simp] theorem length_lines (t : Text) : (lines t).length = (pieces t).length := List.length_map _

theorem lines_append {a : Text} (h : Complete a) (b : Text) :
    lines (a ++ b) = lines a ++ lines b := by
  rw [lines, pieces_append h, List.map_append, lines, lines]

theorem lines_lead (n : Nat) (t : Text) : lines (lead n t) = (lines t).take n := by
  rw [lines, pieces_lead, List.map_take, lines]

theorem lines_rest (n : Nat) (t : Text) : lines (rest n t) = (lines t).drop n := by
  rw [lines, pieces_rest, List.map_drop, lines]

/-- Stored lines taken out of a text are rows taken out of its listing. -/
theorem lines_lead_append_rest {n : Nat} (h : n < (pieces t).length) (m : Nat) :
    lines (lead n t ++ rest m t) = (lines t).take n ++ (lines t).drop m := by
  have hc : Complete (lead n t) := complete_flatten (complete_of_mem_take h)
  rw [lines_append hc, lines_lead, lines_rest]

/-- There is a row for each line feed, and one for what stands behind the last of them. -/
theorem length_lines_eq (t : Text) :
    (lines t).length = if t = [] ∨ t.getLast? = some '\n' then feeds t else feeds t + 1 := by
  rw [length_lines]
  split
  · exact length_pieces_of_complete (complete_iff.mpr ‹_›)
  · exact length_pieces_of_not_complete (mt complete_iff.mp ‹_›)

/-- A stored line begins behind the start or behind a line feed. -/
theorem le_feeds_of_lt {n : Nat} (h : n < (pieces t).length) : n ≤ feeds t := by
  rw [← length_lines, length_lines_eq] at h
  split at h
  · exact Nat.le_of_lt h
  · exact Nat.le_of_lt_succ h

theorem dropSuffix?_eq_some_iff {suffix a : Text} :
    dropSuffix? suffix t = some a ↔ t = a ++ suffix := by
  unfold dropSuffix?
  constructor
  · intro h
    split at h
    · obtain ⟨b, rfl⟩ := List.isSuffixOf_iff_suffix.mp ‹_›
      rw [List.length_append, Nat.add_sub_cancel, List.take_left] at h
      rw [Option.some.inj h]
    · cases h
  · rintro rfl
    rw [if_pos (List.isSuffixOf_iff_suffix.mpr ⟨a, rfl⟩), List.length_append, Nat.add_sub_cancel,
      List.take_left]

theorem dropFeed_append_crlf (x : Text) : dropFeed (x ++ ['\r', '\n']) = x ++ ['\r'] := by
  rw [List.append_cons x '\r' ['\n'], dropFeed_append_feed]

theorem chomp_append_crlf (x : Text) : chomp (x ++ ['\r', '\n']) = x := by
  have hfeed : dropSuffix? ['\n'] (x ++ ['\r', '\n']) = some (x ++ ['\r']) :=
    dropSuffix?_eq_some_iff.mpr (List.append_cons x '\r' ['\n'])
  have hreturn : dropSuffix? ['\r'] (x ++ ['\r']) = some x := dropSuffix?_eq_some_iff.mpr rfl
  simp only [chomp, hfeed, hreturn, Option.getD_some]

/-- A carriage return that no line feed follows belongs to the line in a listing as well. -/
theorem chomp_eq_dropFeed (h : ∀ x, t ≠ x ++ ['\r', '\n']) : chomp t = dropFeed t := by
  unfold chomp dropFeed
  cases hfeed : dropSuffix? ['\n'] t with
  | none => rfl
  | some a =>
    have hreturn : dropSuffix? ['\r'] a = none := by
      refine Option.eq_none_iff_forall_ne_some.mpr fun x hx => h x ?_
      rw [dropSuffix?_eq_some_iff.mp hfeed, dropSuffix?_eq_some_iff.mp hx]
      exact (List.append_cons x '\r' ['\n']).symm
    simp only [hreturn, Option.getD_none, Option.getD_some]

end Text

namespace Buffer

variable {σ : Type} [TextStore σ] {holds : σ → Text → Prop} {b : Buffer σ} {K : Text}

/-- A row is the line that it numbers, but for a carriage return before the line feed. -/
structure Row (K : Text) (n : Nat) (l row : Text) : Prop where
  crlf : ∀ x, K.pieces[n - 1]? = some (x ++ ['\r', '\n']) → l = x ++ ['\r'] ∧ row = x
  plain : (∀ x, K.pieces[n - 1]? ≠ some (x ++ ['\r', '\n'])) → row = l

/-- A stored line can be read by its number, and its row is that of the line. -/
theorem line_row (k : Reliable holds) (h : Consistent holds b K) {n : Nat} (h1 : 1 ≤ n)
    (hn : n ≤ K.pieces.length) :
    ∃ l row b', line n b = .ok l b' ∧ K.lines[n - 1]? = some row ∧ Row K n l row := by
  obtain ⟨n, rfl⟩ := Nat.exists_eq_add_of_le' h1
  have hpiece : K.pieces[n]? = some K.pieces[n] := List.getElem?_eq_getElem hn
  obtain ⟨_, b', hline, rfl, -⟩ :=
    (line_ends_of_le k.toEdits h.shows (Text.le_feeds_of_lt hn)).exists_ok fun _ _ he => he.1
  refine ⟨_, K.pieces[n].chomp, b', hline, ?_, ?_, ?_⟩
  · rw [Nat.add_sub_cancel, Text.lines, List.getElem?_map, hpiece, Option.map_some]
  all_goals rw [Nat.add_sub_cancel, hpiece, Option.getD_some]
  · intro x hx
    rw [Option.some.inj hx]
    exact ⟨Text.dropFeed_append_crlf x, Text.chomp_append_crlf x⟩
  · exact fun hx => Text.chomp_eq_dropFeed fun x he => hx x (congrArg some he)

/-- Lines removed by their numbers are rows removed from the listing. -/
theorem listing_deleteLines (k : Reliable holds) (h : Consistent holds b K) {n size : Nat}
    (h1 : 1 ≤ n) (hn : n + size ≤ K.pieces.length) :
    ∃ b' b'', deleteLines n size b = .ok () b' ∧
      listing b' = .ok (K.lines.take (n - 1) ++ K.lines.drop (n + size)) b'' := by
  obtain ⟨_, b', hdel, -, h'⟩ :=
    (deleteLines_drafts k h1 size h.shows.toReads).exists_ok fun _ _ he => he.cause.elim id id
  obtain ⟨_, b'', hlisting, rfl, -⟩ := (listing_ends k h').exists_ok fun _ _ he => he.1
  refine ⟨b', b'', hdel, ?_⟩
  rw [hlisting, Page.settle_text, Page.without_of_pos h1]
  have hlt : n - 1 < K.pieces.length := by omega
  exact congrArg (EStateM.Result.ok · b'') (Text.lines_lead_append_rest hlt (n + size))

/-- **A listing numbers the lines as every other operation does.** It has a row for each stored line
and no other. A row reads as its line does, but for a carriage return before the line feed, and
removing lines by their numbers removes these rows. -/
theorem listing_numbers (k : Reliable holds) (h : Consistent holds b K) :
    ∃ rows b₁, listing b = .ok rows b₁ ∧ rows.length = K.pieces.length ∧
      rows.length =
        (if K = [] ∨ K.getLast? = some '\n' then b.lineCount - 1 else b.lineCount) ∧
      (∀ n, 1 ≤ n → n ≤ rows.length → ∃ l row b₂, line n b = .ok l b₂ ∧
        rows[n - 1]? = some row ∧ Row K n l row) ∧
      ∀ n size, 1 ≤ n → n + size ≤ rows.length → ∃ b₃ b₄, deleteLines n size b = .ok () b₃ ∧
        listing b₃ = .ok (rows.take (n - 1) ++ rows.drop (n + size)) b₄ := by
  obtain ⟨_, b₁, hlisting, rfl, -⟩ := (listing_ends k h.shows).exists_ok fun _ _ he => he.1
  refine ⟨K.lines, b₁, hlisting, Text.length_lines K, ?_, ?_, ?_⟩
  · rw [Text.length_lines_eq, h.lineCount, Nat.add_sub_cancel]
  all_goals rw [Text.length_lines]
  · exact fun n => line_row k h
  · exact fun n size => listing_deleteLines k h

/-- An empty line between one that ends in both characters and one that ends in a carriage return
alone. -/
theorem listing_numbers_returns :
    let b : Buffer MemoryStore :=
      ⟨⟨"a\r\n\nb\r".toList⟩, LineIndex.scan "a\r\n\nb\r".toList, 1, .insert⟩
    ∃ rows b₁, listing b = .ok rows b₁ ∧ rows.length = 3 ∧
      (∃ b₂, line 1 b = .ok "a\r".toList b₂ ∧ rows[0]? = some "a".toList) ∧
      (∃ l b₂, line 3 b = .ok l b₂ ∧ rows[2]? = some l) ∧
      ∃ b₃ b₄, deleteLines 1 1 b = .ok () b₃ ∧ listing b₃ = .ok (rows.drop 2) b₄ := by
  intro b
  have h : Consistent MemoryStore.Holds b "a\r\n\nb\r".toList :=
    ⟨rfl, rfl, by decide, by decide⟩
  obtain ⟨rows, b₁, hr, -, hlen, hrow, hdel⟩ := listing_numbers MemoryStore.reliable h
  replace hlen : rows.length = 3 := hlen
  refine ⟨rows, b₁, hr, hlen, ?_, ?_, ?_⟩
  · obtain ⟨l, row, b₂, hl, hr, hx⟩ := hrow 1 (by decide) (by omega)
    obtain ⟨rfl, rfl⟩ := hx.crlf ['a'] (by decide)
    exact ⟨b₂, hl, hr⟩
  · obtain ⟨l, row, b₂, hl, hr, hx⟩ := hrow 3 (by decide) (by omega)
    have hpiece : (Text.pieces "a\r\n\nb\r".toList)[2]? = some ['b', '\r'] := by decide
    obtain rfl := hx.plain fun x he => by
      have hlast := congrArg List.getLast? (Option.some.inj (hpiece.symm.trans he))
      rw [List.append_cons, List.getLast?_concat] at hlast
      exact absurd hlast (by decide)
    exact ⟨row, b₂, hl, hr⟩
  · exact hdel 1 1 (by decide) (by omega)

end Buffer
end LineRepl
