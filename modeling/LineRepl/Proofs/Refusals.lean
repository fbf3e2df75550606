import LineRepl.Proofs.Spellings

/-! Statements that are refused. The first token names a command, and the command says how many
tokens may follow and what they may be. The reasons exclude each other, so that a refused statement
has one reason, and what is told of it stands in the statement: the whole of it as it was trimmed,
its command, and the argument that is at fault. -/
namespace LineRepl

open Text

/-! ## Reasons -/

/-- The token is the command word, in whichever case its letters are. -/
def Command.NamedBy (c : Command) (token : Text) : Prop :=
  Command.sameUpToCase c.name.toList token = true

theorem Command.ofToken?_eq_some_iff {c : Command} {token : Text} :
    ofToken? token = some c ↔ c.NamedBy token := by
  refine ⟨fun h => ?_, ofToken?_of_sameUpToCase⟩
  unfold ofToken? at h
  have hp := List.find?_some h
  exact hp

/-- Why a command refuses the tokens that follow it in the statement `s`. -/
inductive Command.Refuses (s : Text) : Command → List Text → CommandError → Prop
  | unexpected {c : Command} {args : List Text} :
      c ∈ [Command.help, .clearScreen, .print, .quit, .reset] → args ≠ [] →
      Refuses s c args (.unexpectedArguments c args.length s)
  | missing : Refuses s .goto [] (.missingArgument .goto)
  | tooMany {c : Command} {arg next : Text} {rest : List Text} :
      c ∈ [Command.goto, .delete] → Refuses s c (arg :: next :: rest) (.tooManyArguments c s)
  | noLine {arg : Text} : ¬ arg.NamesLine → Refuses s .goto [arg] (.invalidArgument .goto arg s)
  | malformed {arg : Text} : 2 ≤ arg.count '-' →
      Refuses s .delete [arg] (.malformedRange .delete arg)
  | noRange {arg part : Text} : arg.count '-' ≤ 1 → part ∈ fields '-' arg → ¬ part.NamesLine →
      Refuses s .delete [arg] (.invalidArgument .delete arg s)
  | tooLarge {c : Command} {arg : Text} {rest : List Text} :
      c ∈ [Command.insert, .replace] → arg.isNumber = true → wordLimit ≤ arg.value →
      Refuses s c (arg :: rest) (.invalidArgument c arg s)
  | range {c : Command} {first last : Text} {rest : List Text} :
      c ∈ [Command.insert, .replace] → first.isNumber = true → last.isNumber = true →
      Refuses s c ((first ++ '-' :: last) :: rest) (.invalidArgument c (first ++ '-' :: last) s)

/-- Why a statement `s` with these tokens is refused. -/
inductive Statement.Refused (s : Text) : List Text → CommandError → Prop
  | noCommand : Refused s [] .missingCommand
  | unknown {token : Text} {args : List Text} : (∀ c : Command, ¬ c.NamedBy token) →
      Refused s (token :: args) (.unknownCommand token)
  | arguments {c : Command} {token : Text} {args : List Text} {e : CommandError} :
      c.NamedBy token → c.Refuses s args e → Refused s (token :: args) e

namespace CommandError

/-- The statement that an error quotes. -/
def statement? : CommandError → Option Text
  | unexpectedArguments _ _ s | tooManyArguments _ s | invalidArgument _ _ s => some s
  | _ => none

/-- The argument that an error quotes. -/
def argument? : CommandError → Option Text
  | invalidArgument _ arg _ | malformedRange _ arg => some arg
  | _ => none

/-- The command that an error names. -/
def command? : CommandError → Option Command
  | missingCommand | unknownCommand _ => none
  | unexpectedArguments c _ _ | missingArgument c | tooManyArguments c _ | invalidArgument c _ _
  | malformedRange c _ => some c

/-- What an error tells is what stands in the statement `s` with these tokens. -/
structure TellsOf (e : CommandError) (s : Text) (tokens : List Text) : Prop where
  statement : ∀ t ∈ e.statement?, t = s
  argument : ∀ t ∈ e.argument?, tokens[1]? = some t
  command : ∀ c ∈ e.command?, ∃ token ∈ tokens.head?, c.NamedBy token

end CommandError

namespace Statement

variable {s tail : Text} {ts : List Text} {c : Command} {e : CommandError}

/-- A statement quotes itself, its first argument and its own command. -/
theorem Refused.tellsOf (h : Refused s ts e) : e.TellsOf s ts := by
  cases h with
  | noCommand => exact ⟨nofun, nofun, nofun⟩
  | unknown _ => exact ⟨nofun, nofun, nofun⟩
  | @arguments c token args _ hc ha =>
    have hc' : ∀ d ∈ some c, ∃ t ∈ (token :: args).head?, d.NamedBy t :=
      fun d hd => ⟨token, rfl, Option.some.inj hd ▸ hc⟩
    cases ha with
    | unexpected | tooMany => exact ⟨fun _ h => (Option.some.inj h).symm, nofun, hc'⟩
    | missing => exact ⟨nofun, nofun, hc'⟩
    | malformed => exact ⟨nofun, fun _ h => h, hc'⟩
    | noLine | noRange | tooLarge | range =>
      exact ⟨fun _ h => (Option.some.inj h).symm, fun _ h => h, hc'⟩

/-! ## Readers of arguments -/

/-- A statement of one number is refused for that number. -/
theorem readLine_error_iff {part arg : Text} (f : Nat → Statement) :
    (do
      let n ← parseNumber c part arg s
      pure (f n)) = .error e ↔ ¬ part.NamesLine ∧ e = .invalidArgument c arg s := by
  unfold parseNumber
  cases hn : part.number? with
  | none =>
    refine ⟨fun h => ⟨number?_eq_none_iff.mp hn, (Except.error.inj h).symm⟩, ?_⟩
    rintro ⟨-, rfl⟩
    rfl
  | some n => exact ⟨nofun, fun h => absurd (namesLine_of_number? hn) h.1⟩

/-- A statement of two numbers is refused for either, and in the same words. -/
theorem readRange_error_iff {first last arg : Text} (f : Nat → Nat → Statement) :
    (do
      let n ← parseNumber c first arg s
      let m ← parseNumber c last arg s
      pure (f n m)) = .error e ↔
      (¬ first.NamesLine ∨ ¬ last.NamesLine) ∧ e = .invalidArgument c arg s := by
  cases hn : first.number? with
  | none =>
    simp only [parseNumber, hn]
    refine ⟨fun h => ⟨.inl (number?_eq_none_iff.mp hn), (Except.error.inj h).symm⟩, ?_⟩
    rintro ⟨-, rfl⟩
    rfl
  | some n =>
    have hfirst : parseNumber c first arg s = .ok n := by simp only [parseNumber, hn]
    rw [hfirst]
    refine (readLine_error_iff (f n)).trans ?_
    simp [namesLine_of_number? hn]

theorem parseBare_error_iff (hc : c ∈ [Command.help, .clearScreen, .print, .quit, .reset]) :
    parseBare c tail s = .error e ↔ c.Refuses s tail.words e := by
  unfold parseBare
  generalize tail.words = args
  cases args with
  | nil =>
    refine ⟨nofun, fun h => ?_⟩
    cases h with
    | unexpected _ hne => exact absurd rfl hne
    | missing => exact absurd hc (by decide)
  | cons arg rest =>
    constructor
    · intro h
      cases h
      exact .unexpected hc (List.cons_ne_nil arg rest)
    · intro h
      cases h with
      | unexpected => rfl
      | tooMany hm | tooLarge hm | range hm =>
        simp only [List.mem_cons, List.not_mem_nil, or_false] at hm
        rcases hm with rfl | rfl <;> exact absurd hc (by decide)
      | noLine | malformed | noRange => exact absurd hc (by decide)

theorem parseGoto_error_iff :
    parseGoto .goto tail s = .error e ↔ Command.goto.Refuses s tail.words e := by
  unfold parseGoto
  generalize tail.words = args
  rcases args with _ | ⟨arg, _ | ⟨next, rest⟩⟩
  · constructor
    · intro h
      cases h
      exact .missing
    · intro h
      cases h with
      | unexpected hm => exact absurd hm (by decide)
      | missing => rfl
  · dsimp only
    rw [readLine_error_iff]
    constructor
    · rintro ⟨hn, rfl⟩
      exact .noLine hn
    · intro h
      cases h with
      | unexpected hm | tooLarge hm | range hm => exact absurd hm (by decide)
      | noLine hn => exact ⟨hn, rfl⟩
  · constructor
    · intro h
      cases h
      exact .tooMany (by decide)
    · intro h
      cases h with
      | unexpected hm | tooLarge hm | range hm => exact absurd hm (by decide)
      | tooMany => rfl

/-- What is at fault with a single argument of `del`: its hyphens, or one of its parts. -/
theorem refuses_delete_iff {arg : Text} : Command.delete.Refuses s [arg] e ↔
    (2 ≤ arg.count '-' ∧ e = .malformedRange .delete arg) ∨
      arg.count '-' ≤ 1 ∧ (∃ part ∈ fields '-' arg, ¬ part.NamesLine) ∧
        e = .invalidArgument .delete arg s := by
  constructor
  · intro h
    cases h with
    | unexpected hm | tooLarge hm | range hm => exact absurd hm (by decide)
    | malformed hc => exact .inl ⟨hc, rfl⟩
    | noRange hc hp hn => exact .inr ⟨hc, ⟨_, hp, hn⟩, rfl⟩
  · rintro (⟨hc, rfl⟩ | ⟨hc, ⟨part, hp, hn⟩, rfl⟩)
    · exact .malformed hc
    · exact .noRange hc hp hn

theorem parseDelete_error_iff :
    parseDelete .delete tail s = .error e ↔ Command.delete.Refuses s tail.words e := by
  unfold parseDelete
  generalize tail.words = args
  rcases args with _ | ⟨arg, _ | ⟨next, rest⟩⟩
  · refine ⟨nofun, fun h => ?_⟩
    cases h with
    | unexpected hm => exact absurd hm (by decide)
  · rw [refuses_delete_iff]
    -- one more part than there are hyphens
    have hlen := length_fields_eq_count '-' arg
    rcases hf : fields '-' arg with _ | ⟨first, _ | ⟨last, _ | ⟨part, rest⟩⟩⟩
    · rw [hf] at hlen
      cases hlen
    · have hc : arg.count '-' = 0 := by simpa [hf] using hlen.symm
      simp only [hf, readLine_error_iff]
      simp [hc]
    · have hc : arg.count '-' = 1 := by simpa [hf] using hlen.symm
      simp only [hf, readRange_error_iff]
      simp [hc]
    · have hc : arg.count '-' = rest.length + 2 := by simpa [hf] using hlen.symm
      simp only [hf]
      simp [hc, eq_comm]
  · constructor
    · intro h
      cases h
      exact .tooMany (by decide)
    · intro h
      cases h with
      | unexpected hm | tooLarge hm | range hm => exact absurd hm (by decide)
      | tooMany => rfl

/-- What is at fault with the first token behind `ins` or `rep`. -/
theorem refuses_write_iff (hc : c ∈ [Command.insert, .replace]) {arg : Text} {rest : List Text} :
    c.Refuses s (arg :: rest) e ↔
      (arg.isNumber = true ∧ wordLimit ≤ arg.value ∨ arg.isRange = true) ∧
        e = .invalidArgument c arg s := by
  constructor
  · intro h
    cases h with
    | unexpected hm | tooMany hm =>
      simp only [List.mem_cons, List.not_mem_nil, or_false] at hc
      rcases hc with rfl | rfl <;> exact absurd hm (by decide)
    | noLine | malformed | noRange => exact absurd hc (by decide)
    | tooLarge _ hn hl => exact ⟨.inl ⟨hn, hl⟩, rfl⟩
    | range _ hf hl => exact ⟨.inr (isRange_iff.mpr ⟨_, _, hf, hl, rfl⟩), rfl⟩
  · rintro ⟨⟨hn, hl⟩ | hr, rfl⟩
    · exact .tooLarge hc hn hl
    · obtain ⟨first, last, hf, hl, rfl⟩ := isRange_iff.mp hr
      exact .range hc hf hl

theorem parseWrite_error_iff (hc : c ∈ [Command.insert, .replace]) :
    parseWrite c tail s = .error e ↔ c.Refuses s tail.words e := by
  unfold parseWrite
  split
  · rename_i hs
    rw [words_of_splitToken_none hs]
    refine ⟨nofun, fun h => ?_⟩
    cases h with
    | unexpected _ hne => exact absurd rfl hne
    | missing => exact absurd hc (by decide)
  · rename_i first rest hs
    rw [words_of_splitToken hs, refuses_write_iff hc]
    split
    · rename_i hn
      rw [readLine_error_iff]
      constructor
      · rintro ⟨hl, rfl⟩
        exact ⟨.inl ⟨hn, Nat.le_of_not_lt fun h => hl ⟨hn, h⟩⟩, rfl⟩
      · rintro ⟨⟨-, hl⟩ | hr, rfl⟩
        · exact ⟨fun h => Nat.not_le_of_lt h.2 hl, rfl⟩
        · exact absurd hr (not_isRange_of_isNumber hn)
    · rename_i hn
      split
      · rename_i hr
        constructor
        · intro h
          cases h
          exact ⟨.inr hr, rfl⟩
        · rintro ⟨-, rfl⟩
          rfl
      · rename_i hr
        refine ⟨nofun, ?_⟩
        rintro ⟨⟨h, -⟩ | h, -⟩
        · exact absurd h hn
        · exact absurd h hr

/-! ## Readers of statements -/

theorem parseTail_error_iff :
    parseTail c tail s = .error e ↔ c.Refuses s tail.words e := by
  cases c with
  | goto => exact parseGoto_error_iff
  | delete => exact parseDelete_error_iff
  | insert | replace => exact parseWrite_error_iff (by decide)
  | help | clearScreen | print | quit | reset => exact parseBare_error_iff (by decide)

/-- The tokens of a statement, without the sigil if there is one. -/
def tokens (statement : Text) : List Text :=
  words (if isStatement statement then statement.drop 1 else statement)

theorem parse_error_iff (text : Text) :
    parse text = .error e ↔ Refused text.trim (tokens text.trim) e := by
  rw [parse_eq]
  unfold tokens
  split
  · rename_i hs
    rw [words_of_splitToken_none hs]
    constructor
    · intro h
      cases h
      exact .noCommand
    · intro h
      cases h
      rfl
  · rename_i token tail hs
    rw [words_of_splitToken hs]
    split
    · rename_i hc
      have hn : ∀ c : Command, ¬ c.NamedBy token := fun c h =>
        nomatch hc.symm.trans (Command.ofToken?_eq_some_iff.mpr h)
      constructor
      · intro h
        cases h
        exact .unknown hn
      · intro h
        cases h with
        | unknown => rfl
        | arguments h => exact absurd h (hn _)
    · rename_i c hc
      have hn := Command.ofToken?_eq_some_iff.mp hc
      rw [parseTail_error_iff]
      refine ⟨.arguments hn, fun h => ?_⟩
      cases h with
      | unknown h => exact absurd hn (h c)
      | arguments h ha =>
        obtain rfl := Option.some.inj (hc.symm.trans (Command.ofToken?_eq_some_iff.mpr h))
        exact ha

/-- **A statement is refused for the one reason that its tokens give**, and read if they give none.
What the error tells then stands in the statement. -/
theorem parse_refuses (text : Text) :
    (∀ e, parse text = .error e ↔ Refused text.trim (tokens text.trim) e) ∧
      ((∃ s, parse text = .ok s) ↔ ∀ e, ¬ Refused text.trim (tokens text.trim) e) ∧
      ∀ e, parse text = .error e → e.TellsOf text.trim (tokens text.trim) := by
  refine ⟨fun e => parse_error_iff text, ?_, fun e h => ((parse_error_iff text).mp h).tellsOf⟩
  simp only [← parse_error_iff]
  cases parse text with
  | ok s =>
    refine ⟨fun _ e he => ?_, fun _ => ⟨s, rfl⟩⟩
    cases he
  | error e => exact ⟨nofun, fun hn => absurd rfl (hn e)⟩

/-- A third part in a range, behind the sigil and other blanks; and the least number that is no machine
word, before the text that it should have been a line for. -/
theorem parse_refuses_borders :
    (parse "\t$ deL\u00A01--3\n".toList = .error (.malformedRange .delete "1--3".toList) ∧
      (CommandError.malformedRange .delete "1--3".toList).TellsOf "$ deL\u00A01--3".toList
        ["deL".toList, "1--3".toList]) ∧
    parse "$ins 18446744073709551616 x".toList =
      .error (.invalidArgument .insert "18446744073709551616".toList
        "$ins 18446744073709551616 x".toList) := by
  have hdel : Command.delete.NamedBy "deL".toList := rfl
  have hins : Command.insert.NamedBy "ins".toList := rfl
  have hs : trim "\t$ deL\u00A01--3\n".toList = "$ deL\u00A01--3".toList := by decide
  have hts : tokens "$ deL\u00A01--3".toList = ["deL".toList, "1--3".toList] := by decide
  have hi : trim "$ins 18446744073709551616 x".toList =
      "$ins 18446744073709551616 x".toList := by decide
  have hti : tokens "$ins 18446744073709551616 x".toList =
      ["ins".toList, "18446744073709551616".toList, "x".toList] := by decide
  obtain ⟨hd, -, ht⟩ := parse_refuses "\t$ deL\u00A01--3\n".toList
  obtain ⟨hw, -⟩ := parse_refuses "$ins 18446744073709551616 x".toList
  rw [hs, hts] at hd ht
  rw [hi, hti] at hw
  have he := (hd _).mpr (.arguments hdel (.malformed (by decide)))
  refine ⟨⟨he, ht _ he⟩, (hw _).mpr (.arguments hins (.tooLarge ?_ ?_ ?_))⟩
  all_goals decide

end Statement
end LineRepl
