import LineRepl.Command.Grammar
import LineRepl.Proofs.Tokens

/-! Statements and the texts that spell them. A statement can be spelled in many ways: blanks may
stand around its parts, the command word may have letters of either case, and numbers may have leading
zeros. All of them are read as this statement. And what is read is a statement that can be spelled, so
that writing it out in the plainest way and reading that again gives it back. -/
namespace LineRepl

open Text

/-! ## Statements -/

/-- The first token would not be taken for a line, and not for a range. -/
structure Text.Unaddressed (t : Text) : Prop where
  number : isNumber t.firstToken = false
  range : isRange t.firstToken = false

/-- Every number in it is a machine word. -/
def LineArg.InRange : LineArg → Prop
  | .line n => n < wordLimit
  | .range first last => first < wordLimit ∧ last < wordLimit

namespace Statement

/-- Statements that can be given. -/
inductive WellFormed : Statement → Prop
  | bare {command : Command} :
      command ∈ [Command.help, .clearScreen, .print, .quit, .reset] → WellFormed { command }
  | goto {n : Nat} : n < wordLimit → WellFormed { command := .goto, arg := some (.line n) }
  | delete {arg : Option LineArg} :
      (∀ a ∈ arg, a.InRange) → WellFormed { command := .delete, arg }
  | write {command : Command} {body : Option Text} :
      command ∈ [Command.insert, .replace] → (∀ text ∈ body, Part text ∧ Unaddressed text) →
      WellFormed { command, body }
  | writeAt {command : Command} {n : Nat} {body : Option Text} :
      command ∈ [Command.insert, .replace] → n < wordLimit → (∀ text ∈ body, Part text) →
      WellFormed { command, arg := some (.line n), body }

end Statement

/-! ## Spellings -/

inductive LineArg.Spells : LineArg → Text → Prop
  | line {n : Nat} {t : Text} : SpellsNumber n t → Spells (.line n) t
  | range {first last : Nat} {t u : Text} : SpellsNumber first t → SpellsNumber last u →
      Spells (.range first last) (t ++ '-' :: u)

/-- Parts of a text, each after at least one blank. -/
inductive Text.Spaced : List Text → Text → Prop
  | nil : Spaced [] []
  | cons {part gap rest : Text} {parts : List Text} :
      gap ≠ [] → Blank gap → Spaced parts rest → Spaced (part :: parts) (gap ++ (part ++ rest))

theorem LineArg.Spells.token {a : LineArg} {t : Text} (h : a.Spells t) : Token t := by
  cases h with
  | line h => exact h.token
  | @range first last t u hf hl =>
    refine ⟨fun h => List.cons_ne_nil _ _ (List.append_eq_nil_iff.mp h).2, ?_⟩
    intro c hc
    rcases List.mem_append.mp hc with hc | hc
    · exact hf.token.solid c hc
    · rcases List.mem_cons.mp hc with rfl | hc
      · decide
      · exact hl.token.solid c hc

namespace Statement

variable {s : Statement} {text : Text}

/-- The parts that follow the command word. -/
inductive Parts (s : Statement) : List Text → Prop
  | unaddressed : s.arg = none → Parts s s.body.toList
  | addressed {a : LineArg} {t : Text} : s.arg = some a → a.Spells t → Parts s (t :: s.body.toList)

/-- Texts that spell a statement: the sigil, the command word and the parts after it. Blanks may stand
before the sigil, after it and at the end. -/
inductive Spells (s : Statement) : Text → Prop
  | intro {lead gap word rest tail : Text} {parts : List Text} :
      Blank lead → Blank gap → Command.sameUpToCase s.command.name.toList word = true →
      Parts s parts → Spaced parts rest → Blank tail →
      Spells s (lead ++ (sigil :: (gap ++ (word ++ rest)) ++ tail))

end Statement

namespace Text

variable {parts : List Text} {part rest word : Text}

theorem Spaced.opensBlank (h : Spaced parts rest) : OpensBlank rest := by
  cases h with
  | nil => exact nofun
  | @cons part gap rest parts hn hg h =>
    cases gap with
    | nil => exact absurd rfl hn
    | cons c gap =>
      intro d hd
      obtain rfl := Option.some.inj hd
      exact hg c List.mem_cons_self

theorem Spaced.closesSolid (h : Spaced parts rest) (hp : ∀ p ∈ parts, Part p) (hw : Part word) :
    ClosesSolid (word ++ rest) := by
  induction h generalizing word with
  | nil =>
    rw [List.append_nil]
    exact hw.closes
  | @cons part gap rest parts hn hg h ih =>
    have hpart : Part part := hp part List.mem_cons_self
    have hne : part ++ rest ≠ [] := fun he => hpart.ne_nil (List.append_eq_nil_iff.mp he).1
    have hrest : ∀ p ∈ parts, Part p := fun p hm => hp p (List.mem_cons_of_mem _ hm)
    rw [← List.append_assoc]
    exact (closesSolid_append_iff hne _).mpr (ih hrest hpart)

/-- Up to the blanks before it, the rest of a text begins with its first part. -/
theorem Spaced.trimStart_cons (h : Spaced (part :: parts) rest) (hp : Part part) :
    ∃ rest', trimStart rest = part ++ rest' ∧ Spaced parts rest' := by
  cases h with
  | @cons _ gap rest _ hn hg h =>
    refine ⟨rest, ?_, h⟩
    rw [trimStart_append hg]
    exact trimStart_of_opensSolid (opensSolid_append hp.opens hp.ne_nil rest)

theorem Spaced.trimStart_singleton (h : Spaced [part] rest) (hp : Part part) :
    trimStart rest = part := by
  obtain ⟨rest', he, hr⟩ := h.trimStart_cons hp
  cases hr
  rw [he, List.append_nil]

theorem toLower_of_isBlank {c : Char} (h : isBlank c = true) : c.toLower = c := by
  unfold Char.toLower
  rw [dif_neg]
  rintro ⟨hl, hu⟩
  have hl : 65 ≤ c.toNat := hl
  have hu : c.toNat ≤ 90 := hu
  unfold isBlank at h
  simp only [Bool.or_eq_true, Bool.and_eq_true, decide_eq_true_eq, beq_iff_eq] at h
  omega

end Text

namespace Command

variable {command : Command} {word : Text}

theorem lower_name (command : Command) : command.name.toList.map Char.toLower ≠ [] ∧
    (command.name.toList.map Char.toLower).all (!isBlank ·) = true := by
  cases command <;> decide

/-- A command word is a token in whichever case its letters are. -/
theorem token_of_sameUpToCase (h : sameUpToCase command.name.toList word = true) : Token word := by
  have he : command.name.toList.map Char.toLower = word.map Char.toLower := eq_of_beq h
  obtain ⟨hn, hs⟩ := lower_name command
  rw [he] at hn hs
  refine ⟨fun hw => hn (congrArg (List.map Char.toLower) hw), ?_⟩
  intro c hc
  cases hb : isBlank c with
  | false => rfl
  | true =>
    -- A blank has no other case, so it would stand in the name itself.
    have hs := List.all_eq_true.mp hs c.toLower (List.mem_map_of_mem hc)
    rw [toLower_of_isBlank hb, hb] at hs
    cases hs

theorem ofToken?_of_sameUpToCase (h : sameUpToCase command.name.toList word = true) :
    ofToken? word = some command := by
  have he : command.name.toList.map Char.toLower = word.map Char.toLower := eq_of_beq h
  unfold ofToken? sameUpToCase
  rw [← he]
  cases command <;> rfl

end Command

namespace Statement

variable {s : Statement} {command : Command} {statement tail rest : Text} {parts : List Text}
  {n : Nat}

/-! ## Reading what is spelled -/

/-- Reads what follows a command word. -/
def parseTail (command : Command) (tail statement : Text) : Except CommandError Statement :=
  match command with
  | .goto => parseGoto .goto tail statement
  | .delete => parseDelete .delete tail statement
  | .insert => parseWrite .insert tail statement
  | .replace => parseWrite .replace tail statement
  | command => parseBare command tail statement

theorem parse_eq (text : Text) :
    parse text =
      match splitToken (if isStatement text.trim then text.trim.drop 1 else text.trim) with
      | none => .error .missingCommand
      | some (token, tail) =>
        match Command.ofToken? token with
        | none => .error (.unknownCommand token)
        | some command => parseTail command tail text.trim := by
  unfold parse
  dsimp only
  cases splitToken (if isStatement text.trim then text.trim.drop 1 else text.trim) with
  | none => rfl
  | some first =>
    obtain ⟨token, tail⟩ := first
    dsimp only
    cases Command.ofToken? token with
    | none => rfl
    | some command => cases command <;> rfl

theorem parseNumber_eq {part : Text} (h : SpellsNumber n part) (hn : n < wordLimit)
    (command : Command) (argument statement : Text) :
    parseNumber command part argument statement = .ok n := by
  rw [parseNumber, h.number? hn]

theorem bodyOf_eq {body : Option Text} (h : Spaced body.toList rest)
    (hb : ∀ text ∈ body, Part text) : bodyOf (trimStart rest) = body := by
  cases body with
  | none =>
    cases h
    rfl
  | some text =>
    have hn : text.isEmpty = false := by simpa using (hb text rfl).ne_nil
    rw [h.trimStart_singleton (hb text rfl), bodyOf, hn]
    rfl

theorem parseDelete_eq {a : LineArg} {t : Text} (h : a.Spells t) (ha : a.InRange)
    (statement : Text) :
    parseDelete .delete t statement = .ok { command := .delete, arg := some a } := by
  have hw := words_token h.token
  cases h with
  | line h =>
    have hf := fields_of_notMem h.hyphen_notMem
    simp only [parseDelete, hw, hf, parseNumber_eq h ha]
    rfl
  | @range first last t u hf hl =>
    have hs : fields '-' (t ++ '-' :: u) = [t, u] := by
      rw [fields_append_cons hf.hyphen_notMem, fields_of_notMem hl.hyphen_notMem]
    simp only [parseDelete, hw, hs, parseNumber_eq hf ha.1, parseNumber_eq hl ha.2]
    rfl

/-- A body is taken whole where its first token is taken for no line. -/
theorem parseWrite_unaddressed (command : Command) {body : Option Text} (h : Spaced body.toList rest)
    (hb : ∀ text ∈ body, Part text ∧ Unaddressed text) (statement : Text) :
    parseWrite command (trimStart rest) statement = .ok { command, body } := by
  have he := bodyOf_eq h fun text ht => (hb text ht).1
  cases body with
  | none =>
    cases h
    rfl
  | some text =>
    obtain ⟨hp, hu⟩ := hb text rfl
    rw [h.trimStart_singleton hp] at he ⊢
    simp only [parseWrite, splitToken_of_opensSolid hp.opens hp.ne_nil, hu.number, hu.range, he]
    rfl

theorem parseWrite_addressed (command : Command) {body : Option Text} {t : Text}
    (ht : SpellsNumber n t) (hn : n < wordLimit) (h : Spaced body.toList rest)
    (hb : ∀ text ∈ body, Part text) (statement : Text) :
    parseWrite command (t ++ rest) statement =
      .ok { command, arg := some (.line n), body } := by
  have hs : splitToken ([] ++ (t ++ rest)) = some (t, trimStart rest) :=
    splitToken_append nofun ht.token h.opensBlank
  rw [List.nil_append] at hs
  simp only [parseWrite, hs, ht.isNumber, if_true, parseNumber_eq ht hn, ← bodyOf_eq h hb]
  rfl

theorem parseTail_write (h : command ∈ [Command.insert, .replace]) (tail statement : Text) :
    parseTail command tail statement = parseWrite command tail statement := by
  simp only [List.mem_cons, List.not_mem_nil, or_false] at h
  rcases h with rfl | rfl <;> rfl

theorem Parts.of_none (hp : s.Parts parts) (h : s.arg = none) : parts = s.body.toList := by
  cases hp with
  | unaddressed => rfl
  | addressed ha => cases h.symm.trans ha

theorem Parts.of_some {a : LineArg} (hp : s.Parts parts) (h : s.arg = some a) :
    ∃ t, a.Spells t ∧ parts = t :: s.body.toList := by
  cases hp with
  | unaddressed ha => cases h.symm.trans ha
  | @addressed b t hb ht =>
    obtain rfl := Option.some.inj (h.symm.trans hb)
    exact ⟨t, ht, rfl⟩

/-- The parts of a statement are read as its arguments. -/
theorem parseTail_eq (hs : s.WellFormed) (hp : s.Parts parts) (h : Spaced parts rest)
    (statement : Text) : parseTail s.command (trimStart rest) statement = .ok s := by
  cases hs with
  | bare hc =>
    obtain rfl := hp.of_none rfl
    cases h
    simp only [List.mem_cons, List.not_mem_nil, or_false] at hc
    rcases hc with rfl | rfl | rfl | rfl | rfl <;> rfl
  | goto hn =>
    obtain ⟨t, ht, rfl⟩ := hp.of_some rfl
    have he := h.trimStart_singleton ht.token.part
    cases ht with
    | line ht =>
      simp only [parseTail, he, parseGoto, words_token ht.token, parseNumber_eq ht hn]
      rfl
  | @delete arg ha =>
    cases arg with
    | none =>
      obtain rfl := hp.of_none rfl
      cases h
      rfl
    | some a =>
      obtain ⟨t, ht, rfl⟩ := hp.of_some rfl
      rw [h.trimStart_singleton ht.token.part]
      exact parseDelete_eq ht (ha a rfl) statement
  | @write command body hc hb =>
    obtain rfl := hp.of_none rfl
    rw [parseTail_write hc]
    exact parseWrite_unaddressed command h hb statement
  | @writeAt command n body hc hn hb =>
    obtain ⟨t, ht, rfl⟩ := hp.of_some rfl
    obtain ⟨rest', he, hr⟩ := h.trimStart_cons ht.token.part
    cases ht with
    | line ht =>
      rw [parseTail_write hc, he]
      exact parseWrite_addressed command ht hn hr hb statement

theorem WellFormed.body_part (h : s.WellFormed) : ∀ text ∈ s.body, Part text := by
  cases h with
  | bare | goto | delete => exact nofun
  | write hc hb => exact fun text ht => (hb text ht).1
  | writeAt hc hn hb => exact hb

theorem Parts.part (hp : s.Parts parts) (hs : s.WellFormed) : ∀ p ∈ parts, Part p := by
  intro p hm
  cases hp with
  | unaddressed => exact hs.body_part p (Option.mem_toList.mp hm)
  | @addressed a t ha ht =>
    rcases List.mem_cons.mp hm with rfl | hm
    · exact ht.token.part
    · exact hs.body_part p (Option.mem_toList.mp hm)

/-- Every spelling of a statement is read as this statement. -/
theorem parse_of_spells {text : Text} (hs : s.WellFormed) (h : s.Spells text) :
    parse text = .ok s := by
  cases h with
  | @intro lead gap word rest tail parts hl hg hc hp hr hb =>
    have hw := Command.token_of_sameUpToCase hc
    have hne : word ++ rest ≠ [] := fun h => hw.ne_nil (List.append_eq_nil_iff.mp h).1
    have ht : Part (sigil :: (gap ++ (word ++ rest))) := by
      refine ⟨List.cons_ne_nil _ _, ?_, ?_⟩
      · intro c hc
        obtain rfl := Option.some.inj hc
        decide
      · exact (closesSolid_append_iff hne (sigil :: gap)).mpr (hr.closesSolid (hp.part hs) hw.part)
    have hi : isStatement (sigil :: (gap ++ (word ++ rest))) = true := rfl
    rw [parse_eq, trim_append hl ht hb, hi, if_pos rfl, List.drop_one, List.tail_cons,
      splitToken_append hg hw hr.opensBlank]
    dsimp only
    rw [Command.ofToken?_of_sameUpToCase hc]
    exact parseTail_eq hs hp hr _

/-! ## What can be read -/

/-- Where the reading went on after a number, the number is a machine word. -/
theorem exists_of_parseNumber {part argument : Text} {f : Nat → Except CommandError Statement}
    (h : parseNumber command part argument statement >>= f = .ok s) :
    ∃ n, n < wordLimit ∧ f n = .ok s := by
  cases hn : parseNumber command part argument statement with
  | error e =>
    rw [hn] at h
    cases h
  | ok n =>
    rw [hn] at h
    refine ⟨n, ?_, h⟩
    unfold parseNumber at hn
    split at hn
    · rename_i hv
      cases hn
      exact lt_of_number? hv
    · cases hn

theorem wellFormed_of_parseGoto (h : parseGoto .goto tail statement = .ok s) : s.WellFormed := by
  unfold parseGoto at h
  split at h
  · cases h
  · obtain ⟨n, hn, h⟩ := exists_of_parseNumber h
    cases h
    exact .goto hn
  · cases h

theorem wellFormed_of_parseDelete (h : parseDelete .delete tail statement = .ok s) :
    s.WellFormed := by
  unfold parseDelete at h
  split at h
  · cases h
    exact .delete nofun
  · split at h
    · obtain ⟨n, hn, h⟩ := exists_of_parseNumber h
      cases h
      exact .delete fun a ha => Option.some.inj ha ▸ hn
    · obtain ⟨first, hf, h⟩ := exists_of_parseNumber h
      obtain ⟨last, hl, h⟩ := exists_of_parseNumber h
      cases h
      exact .delete fun a ha => Option.some.inj ha ▸ ⟨hf, hl⟩
    · cases h
  · cases h

theorem eq_of_mem_bodyOf {text : Text} (h : text ∈ bodyOf tail) : text = tail ∧ tail ≠ [] := by
  unfold bodyOf at h
  split at h
  · cases h
  · rename_i hn
    exact ⟨(Option.some.inj h).symm, fun ht => hn (ht ▸ rfl)⟩

theorem wellFormed_of_parseWrite (hm : command ∈ [Command.insert, .replace])
    (ho : OpensSolid tail) (hc : ClosesSolid tail)
    (h : parseWrite command tail statement = .ok s) : s.WellFormed := by
  unfold parseWrite at h
  split at h
  · rename_i hs
    cases h
    refine .write hm fun text ht => ?_
    obtain ⟨rfl, hn⟩ := eq_of_mem_bodyOf ht
    rw [splitToken_of_opensSolid ho hn] at hs
    cases hs
  · rename_i first rest hs
    split at h
    · obtain ⟨n, hn, h⟩ := exists_of_parseNumber h
      cases h
      refine .writeAt hm hn fun text ht => ?_
      obtain ⟨rfl, hne⟩ := eq_of_mem_bodyOf ht
      obtain ⟨hor, hr⟩ := splitToken_rest hs
      exact ⟨hne, hor, hc.of_suffix hr⟩
    · rename_i hnumber
      split at h
      · cases h
      · rename_i hrange
        cases h
        refine .write hm fun text ht => ?_
        obtain ⟨rfl, hne⟩ := eq_of_mem_bodyOf ht
        rw [splitToken_of_opensSolid ho hne] at hs
        cases hs
        exact ⟨⟨hne, ho, hc⟩, eq_false_of_ne_true hnumber, eq_false_of_ne_true hrange⟩

theorem wellFormed_of_parseTail (ho : OpensSolid tail) (hc : ClosesSolid tail)
    (h : parseTail command tail statement = .ok s) : s.WellFormed := by
  have bare (hm : command ∈ [Command.help, .clearScreen, .print, .quit, .reset])
      (h : parseBare command tail statement = .ok s) : s.WellFormed := by
    unfold parseBare at h
    split at h
    · cases h
      exact .bare hm
    · cases h
  cases command with
  | goto => exact wellFormed_of_parseGoto h
  | delete => exact wellFormed_of_parseDelete h
  | insert | replace => exact wellFormed_of_parseWrite (by decide) ho hc h
  | help | clearScreen | print | quit | reset => exact bare (by decide) h

/-- Whatever is read can be given. -/
theorem wellFormed_of_parse {text : Text} (h : parse text = .ok s) : s.WellFormed := by
  have hc : ClosesSolid text.trim := closesSolid_trimEnd _
  have hr : (if isStatement text.trim then text.trim.drop 1 else text.trim) <:+ text.trim := by
    split
    · exact List.drop_suffix 1 _
    · exact List.suffix_refl _
  rw [parse_eq] at h
  split at h
  · cases h
  · rename_i token tail hs
    obtain ⟨ho, ht⟩ := splitToken_rest hs
    split at h
    · cases h
    · exact wellFormed_of_parseTail ho (hc.of_suffix (ht.trans hr)) h

/-! ## The plainest spelling -/

end Statement

/-- A line argument in decimal, without leading zeros. -/
def LineArg.render : LineArg → Text
  | .line n => Text.decimal n
  | .range first last => Text.decimal first ++ '-' :: Text.decimal last

theorem LineArg.spells_render (a : LineArg) : a.Spells a.render := by
  cases a with
  | line n => exact .line (spellsNumber_decimal n)
  | range first last => exact .range (spellsNumber_decimal first) (spellsNumber_decimal last)

/-- Parts with one blank before each. -/
def Text.spaced (parts : List Text) : Text := parts.flatMap (' ' :: ·)

theorem Text.spaced_spaced (parts : List Text) : Spaced parts (spaced parts) := by
  induction parts with
  | nil => exact .nil
  | cons p parts ih =>
    have hg : Blank [' '] := by decide
    exact .cons (List.cons_ne_nil _ _) hg ih

namespace Statement

/-- A statement in its plainest spelling. -/
def render (s : Statement) : Text :=
  sigil :: (s.command.name.toList ++ Text.spaced ((s.arg.map LineArg.render).toList ++ s.body.toList))

theorem spells_render (s : Statement) : s.Spells s.render := by
  have hp : s.Parts ((s.arg.map LineArg.render).toList ++ s.body.toList) := by
    obtain ⟨command, _ | a, body⟩ := s
    · exact .unaddressed rfl
    · exact .addressed rfl a.spells_render
  have hw : Command.sameUpToCase s.command.name.toList s.command.name.toList = true :=
    beq_self_eq_true _
  have hb : Blank [] := nofun
  have h := Spells.intro hb hb hw hp (Text.spaced_spaced _) hb
  rwa [List.append_nil] at h

/-- **Statements are read as they are spelled.** Every spelling of a statement that can be given is
read as this statement, and everything that is read is one that can be given and that its plainest
spelling gives back. -/
theorem parse_spellings :
    (∀ (s : Statement) (text : Text), s.WellFormed → s.Spells text → parse text = .ok s) ∧
      ∀ (text : Text) (s : Statement), parse text = .ok s →
        s.WellFormed ∧ s.Spells s.render ∧ parse s.render = .ok s := by
  refine ⟨fun s text => parse_of_spells, fun text s h => ?_⟩
  have hs := wellFormed_of_parse h
  exact ⟨hs, spells_render s, parse_of_spells hs (spells_render s)⟩

def replaceSeven : Statement := ⟨.replace, some (.line 7), some "int  x = 1;".toList⟩

/-- With several kinds of blanks, letters of both cases, leading zeros and blanks in the body. -/
theorem parse_spellings_blanks :
    parse "\t$\u00A0rEp \u2003 007\u3000int  x = 1;\n".toList = .ok replaceSeven ∧
      parse replaceSeven.render = .ok replaceSeven := by
  have hb : ∀ text ∈ replaceSeven.body, Part text := by
    intro text ht
    obtain rfl := Option.some.inj ht
    exact ⟨by decide, by decide, by decide⟩
  have hs : replaceSeven.WellFormed := .writeAt (by decide) (by decide) hb
  have hp : replaceSeven.Parts ["007".toList, "int  x = 1;".toList] :=
    .addressed rfl (.line ⟨2, rfl⟩)
  have hr : Spaced ["007".toList, "int  x = 1;".toList]
      (" \u2003 ".toList ++ ("007".toList ++ ("\u3000".toList ++ ("int  x = 1;".toList ++ [])))) :=
    .cons (by decide) (by decide) (.cons (by decide) (by decide) .nil)
  have hl : Blank "\t".toList := by decide
  have hg : Blank "\u00A0".toList := by decide
  have ht : Blank "\n".toList := by decide
  have hw : Command.sameUpToCase replaceSeven.command.name.toList "rEp".toList = true := by decide
  have h := parse_spellings.1 replaceSeven _ hs (.intro hl hg hw hp hr ht)
  exact ⟨h, (parse_spellings.2 _ _ h).2.2⟩

end Statement
end LineRepl
