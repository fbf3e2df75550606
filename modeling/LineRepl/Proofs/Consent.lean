import LineRepl.Proofs.Tokens
import LineRepl.Startup.SourceFile

/-! No file is overwritten without consent. The questions of a choice and the answers to them make one
list, in which a question that is left when the answers have run out meets the end of the input. How a
choice goes is said once, question by question; what name is in force at each of them, what the last one
was and what comes of it all follow by induction on that. -/
namespace LineRepl

theorem withSourceSuffix_suffix (name : Text) : sourceSuffix <:+ withSourceSuffix name := by
  unfold withSourceSuffix
  split
  · rename_i h
    exact List.isSuffixOf_iff_suffix.mp h
  · exact List.suffix_append name sourceSuffix

theorem Text.toLower_eq_nil_iff {t : Text} : toLower t = [] ↔ t = [] := by
  cases t with
  | nil => exact iff_of_true rfl rfl
  | cons c r =>
    refine iff_of_false (fun h => ?_) (List.cons_ne_nil c r)
    have hform := (List.append_eq_nil_iff.mp h).1
    -- every case of the form of a character is a text that has a character
    unfold lowerChar at hform
    split at hform
    · cases hform
    · split at hform
      · cases hform
      · dsimp only at hform
        split at hform <;> cases hform

theorem answeredName?_of_blank {answer : Text} (h : answer.allBlank = true) :
    answeredName? answer = none := by
  rw [answeredName?, Text.trim_eq_nil_iff.mpr h]
  rfl

theorem answeredName?_of_not_blank {answer : Text} (h : answer.allBlank = false) :
    answeredName? answer = some (withSourceSuffix (Text.toLower (Text.trim answer))) := by
  have hne : Text.toLower (Text.trim answer) ≠ [] := by
    rw [ne_eq, Text.toLower_eq_nil_iff, Text.trim_eq_nil_iff, h]
    exact Bool.false_ne_true
  unfold answeredName?
  split
  · contradiction
  · rfl

namespace Choice

/-! ## Questions and answers -/

/-- Whether an answer is waited for. -/
def isQuestion : Saying → Bool
  | .ask _ => true
  | .notify _ => false

def questions (c : Choice) : List Saying := c.talk.filter isQuestion

/-- The questions with their answers. The one after the last answer meets the end of the input. -/
def exchanges (c : Choice) (answers : List Answer) : List (Saying × Answer) :=
  c.questions.zip (answers ++ [.endOfInput])

theorem overwriteQuestion_ne_nameQuestion (name : Text) :
    overwriteQuestion name ≠ nameQuestion := by
  intro h
  have h' : ['F'] = ['E'] := congrArg (List.take 1) (Saying.ask.inj h)
  cases h'

/-- The name that an exchange gives. -/
def given? : Saying × Answer → Option Text
  | (question, .line answer) =>
    if question = nameQuestion ∧ answer.allBlank = false then
      some (withSourceSuffix (Text.toLower (Text.trim answer)))
    else none
  | _ => none

/-- The name in force after these exchanges: the last one that they give, else the one before. -/
def nameAfter (pending : Option Text) (talks : List (Saying × Answer)) : Option Text :=
  (talks.filterMap given?).getLast?.or pending

variable {pending : Option Text} {name file : Text} {x : Saying × Answer}
  {talks : List (Saying × Answer)}

theorem nameAfter_given (h : given? x = some name) :
    nameAfter pending (x :: talks) = nameAfter (some name) talks := by
  unfold nameAfter
  rw [List.filterMap_cons_some h, List.getLast?_cons]
  cases (talks.filterMap given?).getLast? <;> rfl

theorem nameAfter_not_given (h : given? x = none) :
    nameAfter pending (x :: talks) = nameAfter pending talks := by
  unfold nameAfter
  rw [List.filterMap_cons_none h]

/-- What is given takes the place of what was there before. -/
theorem nameAfter_of_none (h : nameAfter none talks = some file) :
    nameAfter pending talks = some file := by
  unfold nameAfter at h ⊢
  rw [Option.or_none] at h
  rw [h, Option.some_or]

theorem given?_overwriteQuestion (name : Text) (a : Answer) :
    given? (overwriteQuestion name, a) = none := by
  cases a with
  | line answer =>
    have hn : ¬ (overwriteQuestion name = nameQuestion ∧ answer.allBlank = false) :=
      fun h => overwriteQuestion_ne_nameQuestion name h.1
    rw [given?, if_neg hn]
  | endOfInput => rfl
  | failure e => rfl

theorem given?_nameQuestion (answer : Text) :
    given? (nameQuestion, .line answer) = answeredName? answer := by
  cases hb : answer.allBlank with
  | true =>
    have hn : ¬ (nameQuestion = nameQuestion ∧ answer.allBlank = false) :=
      fun h => Bool.noConfusion (hb.symm.trans h.2)
    rw [answeredName?_of_blank hb, given?, if_neg hn]
  | false => rw [answeredName?_of_not_blank hb, given?, if_pos ⟨rfl, hb⟩]

theorem suffix_of_given? (h : given? x = some name) : sourceSuffix <:+ name := by
  obtain ⟨question, a⟩ := x
  cases a with
  | line answer =>
    rw [given?] at h
    split at h
    · obtain rfl := Option.some.inj h
      exact withSourceSuffix_suffix _
    · cases h
  | endOfInput => cases h
  | failure e => cases h

/-- A name in force is the one before or was given, so it has the ending of source files. -/
theorem suffix_of_nameAfter (hp : ∀ n ∈ pending, sourceSuffix <:+ n)
    (h : nameAfter pending talks = some file) : sourceSuffix <:+ file := by
  obtain hl | ⟨-, hn⟩ := Option.or_eq_some_iff.mp h
  · obtain ⟨x, -, hx⟩ := List.mem_filterMap.mp (List.mem_of_getLast? hl)
    exact suffix_of_given? hx
  · exact hp file hn

/-! ## How a choice goes -/

/-- Whether a name was asked for and the answer was blank, which a notice follows. -/
def namesNone : Saying × Answer → Bool
  | (question, .line answer) => decide (question = nameQuestion) && answer.allBlank
  | _ => false

theorem namesNone_overwriteQuestion (name : Text) (a : Answer) :
    namesNone (overwriteQuestion name, a) = false := by
  cases a with
  | line answer => rw [namesNone, decide_eq_false (overwriteQuestion_ne_nameQuestion name)]; rfl
  | endOfInput => rfl
  | failure e => rfl

theorem namesNone_nameQuestion (answer : Text) :
    namesNone (nameQuestion, .line answer) = (answeredName? answer).isNone := by
  rw [namesNone, decide_eq_true rfl, Bool.true_and]
  cases hb : answer.allBlank with
  | true => rw [answeredName?_of_blank hb]; rfl
  | false => rw [answeredName?_of_not_blank hb]; rfl

theorem countP_namesNone_overwriteQuestion (name : Text) (a : Answer)
    (talks : List (Saying × Answer)) :
    ((overwriteQuestion name, a) :: talks).countP namesNone = talks.countP namesNone :=
  List.countP_cons_of_neg (Bool.eq_false_iff.mp (namesNone_overwriteQuestion name a))

theorem countP_namesNone_of_some {answer : Text} (h : answeredName? answer = some name)
    (talks : List (Saying × Answer)) :
    ((nameQuestion, .line answer) :: talks).countP namesNone = talks.countP namesNone := by
  refine List.countP_cons_of_neg ?_
  rw [namesNone_nameQuestion, h]
  exact Bool.false_ne_true

theorem namesNone_of_none {answer : Text} (h : answeredName? answer = none) :
    namesNone (nameQuestion, .line answer) = true := by
  rw [namesNone_nameQuestion, h]
  rfl

theorem countP_namesNone_of_none {answer : Text} (h : answeredName? answer = none)
    (talks : List (Saying × Answer)) :
    ((nameQuestion, .line answer) :: talks).countP namesNone = talks.countP namesNone + 1 :=
  List.countP_cons_of_pos (namesNone_of_none h)

/-- One more exchange in front leaves the last one as it was. -/
theorem last_cons {x y : Saying × Answer} {talks : List (Saying × Answer)}
    (h : talks.getLast? = some y) : (x :: talks).getLast? = some y := by
  rw [List.getLast?_cons, h, Option.getD_some]

/-- What is asked when this name is in force. -/
def questionFor : Option Text → Saying
  | some name => overwriteQuestion name
  | none => nameQuestion

/-- From a name in force, or from none, these questions with their answers lead to this result.
`notices` tells which of the notices to come fail. -/
inductive Goes (tree : FileTree) (dir : Path) (assent : Bool) :
    (notices : Nat → Option IoError) → Option Text → List (Saying × Answer) →
      Except IoError Path → Prop
  | settled {notices : Nat → Option IoError} {name : Text}
      (h : assent = true ∨ tree.pathExists (dir.join ⟨name⟩) = false) :
      Goes tree dir assent notices (some name) [] (.ok (dir.join ⟨name⟩))
  | agreed {notices : Nat → Option IoError} {name answer : Text} (h : agrees answer = true) :
      Goes tree dir assent notices (some name) [(overwriteQuestion name, .line answer)]
        (.ok (dir.join ⟨name⟩))
  | refused {notices : Nat → Option IoError} {name answer : Text} {talks : List (Saying × Answer)}
      {r : Except IoError Path} (h : Goes tree dir assent notices none talks r) :
      Goes tree dir assent notices (some name) ((overwriteQuestion name, .line answer) :: talks) r
  | named {notices : Nat → Option IoError} {answer name : Text} {talks : List (Saying × Answer)}
      {r : Except IoError Path} (hn : answeredName? answer = some name)
      (h : Goes tree dir assent notices (some name) talks r) :
      Goes tree dir assent notices none ((nameQuestion, .line answer) :: talks) r
  | unnamed {notices : Nat → Option IoError} {answer : Text} {talks : List (Saying × Answer)}
      {r : Except IoError Path} (hn : answeredName? answer = none) (hnotice : notices 0 = none)
      (h : Goes tree dir assent (notices ∘ Nat.succ) none talks r) :
      Goes tree dir assent notices none ((nameQuestion, .line answer) :: talks) r
  /-- The answer was blank, and it cannot be told. -/
  | untold {notices : Nat → Option IoError} {answer : Text} {e : IoError}
      (hn : answeredName? answer = none) (hnotice : notices 0 = some e) :
      Goes tree dir assent notices none [(nameQuestion, .line answer)] (.error e)
  | ended {notices : Nat → Option IoError} {pending : Option Text} :
      Goes tree dir assent notices pending [(questionFor pending, .endOfInput)] (.error noName)
  | failed {notices : Nat → Option IoError} {pending : Option Text} {e : IoError} :
      Goes tree dir assent notices pending [(questionFor pending, .failure e)] (.error e)

variable {tree : FileTree} {dir path : Path} {assent : Bool} {notices : Nat → Option IoError}
  {r : Except IoError Path}

namespace Goes

/-- Each question is about the name in force, or asks for one. -/
theorem question (h : Goes tree dir assent notices pending talks r) :
    ∀ {before : List (Saying × Answer)} {q : Saying} {a : Answer} {after : List (Saying × Answer)},
      talks = before ++ (q, a) :: after →
        q = nameQuestion ∨ ∃ n, nameAfter pending before = some n ∧ q = overwriteQuestion n := by
  -- a question about the name in force, which nothing was asked before
  have hfirst (pending : Option Text) {q : Saying} (hq : questionFor pending = q) :
      q = nameQuestion ∨ ∃ n, nameAfter pending [] = some n ∧ q = overwriteQuestion n := by
    subst hq
    cases pending with
    | none => exact .inl rfl
    | some n => exact .inr ⟨n, rfl, rfl⟩
  -- one exchange alone can only be cut before it
  have hlast (pending : Option Text) {a : Answer} {before after : List (Saying × Answer)}
      {q : Saying} {b : Answer} (h : [(questionFor pending, a)] = before ++ (q, b) :: after) :
      q = nameQuestion ∨ ∃ n, nameAfter pending before = some n ∧ q = overwriteQuestion n := by
    cases before with
    | nil => exact hfirst pending (Prod.mk.inj (List.cons.inj h).1).1
    | cons y before => exact absurd (List.cons.inj h).2 (by simp)
  induction h with
  | settled => intro before _ _ _ hs; cases before <;> cases hs
  | @agreed _ name => exact hlast (some name)
  | untold => exact hlast none
  | ended => exact hlast _
  | failed => exact hlast _
  | @refused _ name answer talks r _ ih =>
    intro before q a after hs
    cases before with
    | nil => exact hfirst (some name) (Prod.mk.inj (List.cons.inj hs).1).1
    | cons y before =>
      obtain ⟨rfl, htail⟩ := List.cons.inj hs
      rw [nameAfter_not_given (given?_overwriteQuestion name _)]
      obtain hq | ⟨n, hn, hq⟩ := ih htail
      · exact .inl hq
      · exact .inr ⟨n, nameAfter_of_none hn, hq⟩
  | @named _ answer name talks r hn _ ih =>
    intro before q a after hs
    cases before with
    | nil => exact .inl (Prod.mk.inj (List.cons.inj hs).1).1.symm
    | cons y before =>
      obtain ⟨rfl, htail⟩ := List.cons.inj hs
      rw [nameAfter_given ((given?_nameQuestion answer).trans hn)]
      exact ih htail
  | @unnamed _ answer talks r hn _ _ ih =>
    intro before q a after hs
    cases before with
    | nil => exact .inl (Prod.mk.inj (List.cons.inj hs).1).1.symm
    | cons y before =>
      obtain ⟨rfl, htail⟩ := List.cons.inj hs
      rw [nameAfter_not_given ((given?_nameQuestion answer).trans hn)]
      exact ih htail

/-- A file that is chosen has the name in force at the end, and is free to be used: by assent to all,
because it does not exist, or because the last question was about it and was agreed to. -/
theorem chosen (h : Goes tree dir assent notices pending talks r) (hr : r = .ok path) :
    ∃ file, path = dir.join ⟨file⟩ ∧ nameAfter pending talks = some file ∧
      (assent = true ∨ tree.pathExists path = false ∨
        ∃ answer, talks.getLast? = some (overwriteQuestion file, .line answer) ∧
          agrees answer = true) := by
  induction h with
  | @settled _ name hfree =>
    obtain rfl := Except.ok.inj hr
    exact ⟨name, rfl, rfl, hfree.imp_right .inl⟩
  | @agreed _ name answer ha =>
    obtain rfl := Except.ok.inj hr
    refine ⟨name, rfl, ?_, .inr (.inr ⟨answer, rfl, ha⟩)⟩
    rw [nameAfter_not_given (given?_overwriteQuestion name _)]
    rfl
  | untold => cases hr
  | ended => cases hr
  | failed => cases hr
  | @refused _ name answer talks r _ ih =>
    obtain ⟨file, hpath, hfile, hfree⟩ := ih hr
    refine ⟨file, hpath, ?_, hfree.imp_right (.imp_right fun ⟨b, hl, hb⟩ => ⟨b, last_cons hl, hb⟩)⟩
    rw [nameAfter_not_given (given?_overwriteQuestion name _)]
    exact nameAfter_of_none hfile
  | @named _ answer name talks r hn _ ih =>
    obtain ⟨file, hpath, hfile, hfree⟩ := ih hr
    refine ⟨file, hpath, ?_, hfree.imp_right (.imp_right fun ⟨b, hl, hb⟩ => ⟨b, last_cons hl, hb⟩)⟩
    rwa [nameAfter_given ((given?_nameQuestion answer).trans hn)]
  | @unnamed _ answer talks r hn _ _ ih =>
    obtain ⟨file, hpath, hfile, hfree⟩ := ih hr
    refine ⟨file, hpath, ?_, hfree.imp_right (.imp_right fun ⟨b, hl, hb⟩ => ⟨b, last_cons hl, hb⟩)⟩
    rwa [nameAfter_not_given ((given?_nameQuestion answer).trans hn)]

/-- The end of the input and an error end the choice, each as the error that it is. -/
theorem broken_off (h : Goes tree dir assent notices pending talks r) :
    ∀ q a, (q, a) ∈ talks → (a = .endOfInput → r = .error noName) ∧
      ∀ e, a = .failure e → r = .error e := by
  -- an exchange with a line breaks nothing off
  have hline {q q' : Saying} {answer : Text} {a : Answer} {r : Except IoError Path}
      (hx : (q, a) = (q', .line answer)) :
      (a = .endOfInput → r = .error noName) ∧ ∀ e, a = .failure e → r = .error e := by
    obtain ⟨-, rfl⟩ := Prod.mk.inj hx
    exact ⟨nofun, nofun⟩
  induction h with
  | settled => exact nofun
  | agreed | untold => exact fun q a hm => hline (List.mem_singleton.mp hm)
  | ended =>
    intro q a hm
    obtain ⟨-, rfl⟩ := Prod.mk.inj (List.mem_singleton.mp hm)
    exact ⟨fun _ => rfl, nofun⟩
  | failed =>
    intro q a hm
    obtain ⟨-, rfl⟩ := Prod.mk.inj (List.mem_singleton.mp hm)
    exact ⟨nofun, fun e he => by rw [Answer.failure.inj he]⟩
  | refused _ ih | named _ _ ih | unnamed _ _ _ ih =>
    intro q a hm
    obtain hx | hm := List.mem_cons.mp hm
    · exact hline hx
    · exact ih q a hm

/-- A notice that fails ends the choice, in its error. The count of the notices is that of the blank
names. -/
theorem notice_failed (h : Goes tree dir assent notices pending talks r) :
    ∀ n e, n < talks.countP namesNone → notices n = some e → r = .error e := by
  induction h with
  | refused _ ih =>
    rw [countP_namesNone_overwriteQuestion]
    exact ih
  | named hname _ ih =>
    rw [countP_namesNone_of_some hname]
    exact ih
  | unnamed hname hnotice _ ih =>
    intro n e hn he
    rw [countP_namesNone_of_none hname] at hn
    cases n with
    | zero => cases hnotice.symm.trans he
    | succ n => exact ih n e (Nat.lt_of_succ_lt_succ hn) he
  | untold hname hnotice =>
    intro n e hn he
    rw [countP_namesNone_of_none hname] at hn
    obtain rfl := Nat.lt_one_iff.mp hn
    rw [Option.some.inj (hnotice.symm.trans he)]
  -- no name is asked for, or none is given, and so nothing is told
  | settled => exact fun n e hn => absurd hn (Nat.not_lt_zero n)
  | agreed =>
    rw [countP_namesNone_overwriteQuestion]
    exact fun n e hn => absurd hn (Nat.not_lt_zero n)
  | ended | failed =>
    intro n e hn
    rw [List.countP_cons_of_neg (by exact Bool.false_ne_true)] at hn
    exact absurd hn (Nat.not_lt_zero n)

/-- There is no other error. -/
theorem error_last (h : Goes tree dir assent notices pending talks r) {e : IoError}
    (hr : r = .error e) :
    (∃ q, talks.getLast? = some (q, .failure e) ∨
        e = noName ∧ talks.getLast? = some (q, .endOfInput)) ∨
      ∃ x n, talks.getLast? = some x ∧ namesNone x = true ∧ n + 1 = talks.countP namesNone ∧
        notices n = some e := by
  -- what ends the talk ends it also behind one more exchange
  have behind {x : Saying × Answer} {talks : List (Saying × Answer)} {P : Nat → Prop}
      (h : (∃ q, talks.getLast? = some (q, .failure e) ∨
          e = noName ∧ talks.getLast? = some (q, .endOfInput)) ∨
        ∃ y n, talks.getLast? = some y ∧ namesNone y = true ∧ P n) :
      (∃ q, (x :: talks).getLast? = some (q, .failure e) ∨
          e = noName ∧ (x :: talks).getLast? = some (q, .endOfInput)) ∨
        ∃ y n, (x :: talks).getLast? = some y ∧ namesNone y = true ∧ P n := by
    refine h.imp ?_ fun ⟨y, n, hl, hn⟩ => ⟨y, n, last_cons hl, hn⟩
    exact fun ⟨q, hq⟩ => ⟨q, hq.imp last_cons (.imp_right last_cons)⟩
  induction h with
  | settled => cases hr
  | agreed => cases hr
  | ended => exact .inl ⟨_, .inr ⟨(Except.error.inj hr).symm, rfl⟩⟩
  | failed =>
    obtain rfl := Except.error.inj hr
    exact .inl ⟨_, .inl rfl⟩
  | @untold _ answer e' hname hnotice =>
    obtain rfl := Except.error.inj hr
    have hcount := countP_namesNone_of_none hname []
    exact .inr ⟨_, 0, rfl, namesNone_of_none hname, hcount.symm, hnotice⟩
  | refused _ ih =>
    rw [countP_namesNone_overwriteQuestion]
    exact behind (ih hr)
  | named hname _ ih =>
    rw [countP_namesNone_of_some hname]
    exact behind (ih hr)
  | unnamed hname hnotice _ ih =>
    rw [countP_namesNone_of_none hname]
    obtain h | ⟨x, n, hl, hx, hn, he⟩ := behind (ih hr)
    · exact .inl h
    · exact .inr ⟨x, n + 1, hl, hx, congrArg (· + 1) hn, he⟩

end Goes

/-- At most one question finds no answer, and the answers that are left are those after the ones that
were used. -/
structure Uses (c : Choice) (answers : List Answer) : Prop where
  questions : c.questions.length ≤ answers.length + 1
  rest : c.rest = answers.drop c.questions.length

theorem Uses.after_question {c : Choice} {q : Saying} {a : Answer} {answers : List Answer}
    (h : c.Uses answers) (hq : isQuestion q = true) : (after q c).Uses (a :: answers) := by
  have hquestions : (after q c).questions = q :: c.questions := List.filter_cons_of_pos hq
  constructor
  · rw [hquestions]
    exact Nat.succ_le_succ h.questions
  · rw [hquestions]
    exact h.rest

theorem exchanges_after_question {q : Saying} (hq : isQuestion q = true) (c : Choice) (a : Answer)
    (answers : List Answer) :
    (after q c).exchanges (a :: answers) = (q, a) :: c.exchanges answers := by
  unfold exchanges
  rw [show (after q c).questions = q :: c.questions from List.filter_cons_of_pos hq]
  rfl

/-- A choice goes as it should, and uses an answer for each question. -/
theorem fromAnswers_goes (tree : FileTree) (dir : Path) (assent : Bool)
    (notices : Nat → Option IoError) (pending : Option Text) (answers : List Answer) :
    Goes tree dir assent notices pending
        ((fromAnswers tree dir assent notices pending answers).exchanges answers)
        (fromAnswers tree dir assent notices pending answers).result ∧
      (fromAnswers tree dir assent notices pending answers).Uses answers := by
  induction answers generalizing notices pending with
  | nil =>
    cases pending with
    | none => exact ⟨.ended, ⟨Nat.le_refl _, rfl⟩⟩
    | some name =>
      rw [fromAnswers]
      split
      · rename_i h
        exact ⟨.settled (by simpa using h), ⟨Nat.zero_le _, rfl⟩⟩
      · exact ⟨.ended, ⟨Nat.le_refl _, rfl⟩⟩
  | cons a rest ih =>
    -- the choice that ends at this answer, whatever the question was
    have hlast {q : Saying} (hq : isQuestion q = true) (r : Except IoError Path)
        (hg : Goes tree dir assent notices pending [(q, a)] r) :
        Goes tree dir assent notices pending ((after q ⟨r, [], rest⟩).exchanges (a :: rest)) r ∧
          (after q ⟨r, [], rest⟩).Uses (a :: rest) := by
      rw [exchanges_after_question hq]
      exact ⟨hg, .after_question ⟨Nat.zero_le _, rfl⟩ hq⟩
    cases pending with
    | none =>
      cases a with
      | endOfInput => exact hlast rfl _ .ended
      | failure e => exact hlast rfl _ .failed
      | line answer =>
        unfold fromAnswers
        dsimp only
        cases hn : answeredName? answer with
        | some name =>
          obtain ⟨hg, hu⟩ := ih notices (some name)
          rw [exchanges_after_question rfl]
          exact ⟨.named hn hg, hu.after_question rfl⟩
        | none =>
          dsimp only
          cases hnotice : notices 0 with
          | some e =>
            rw [exchanges_after_question rfl]
            exact ⟨.untold hn hnotice, .after_question ⟨Nat.zero_le _, rfl⟩ rfl⟩
          | none =>
            obtain ⟨hg, hu⟩ := ih (notices ∘ Nat.succ) none
            rw [exchanges_after_question rfl]
            exact ⟨.unnamed hn hnotice hg, .after_question ⟨hu.questions, hu.rest⟩ rfl⟩
    | some name =>
      unfold fromAnswers
      dsimp only
      split
      · rename_i h
        exact ⟨.settled (by simpa using h), ⟨Nat.zero_le _, rfl⟩⟩
      · cases a with
        | endOfInput => exact hlast rfl _ .ended
        | failure e => exact hlast rfl _ .failed
        | line answer =>
          dsimp only
          split
          · rename_i ha
            exact hlast rfl _ (.agreed ha)
          · obtain ⟨hg, hu⟩ := ih notices none
            rw [exchanges_after_question rfl]
            exact ⟨.refused hg, hu.after_question rfl⟩

end Choice

open Choice

/-- A directory in which two source files exist already. -/
def takenNames : FileTree :=
  ⟨[], [(["src".toList], .directory), (["src".toList, "a.cpp".toList], .file [] false),
    (["src".toList, "b.cpp".toList], .file [] false)]⟩

end LineRepl
