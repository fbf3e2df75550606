import LineRepl.Proofs.Tokens
import LineRepl.Settings.Load

/-! Paths that begin at the home directory. What follows a first name `~` is put behind the home, with
the same names in the same order. Whatever else stands between the names, or at the end of the path, does
not matter, and a path that begins in any other way is left alone. -/
namespace LineRepl

/-! ## Fields and names -/

namespace Text

theorem notMem_of_mem_fields {ch : Char} {t f : Text} (h : f ∈ fields ch t) : ch ∉ f := by
  induction t generalizing f with
  | nil =>
    obtain rfl := List.mem_singleton.mp h
    exact List.not_mem_nil
  | cons c r ih =>
    by_cases hc : c = ch
    · rw [fields, if_pos hc] at h
      obtain rfl | h := List.mem_cons.mp h
      · exact List.not_mem_nil
      · exact ih h
    · obtain ⟨g, gs, hg⟩ := exists_fields_cons ch r
      rw [fields_cons_of_ne hc hg] at h
      rw [hg] at ih
      obtain rfl | h := List.mem_cons.mp h
      · exact fun hm => (List.mem_cons.mp hm).elim (fun he => hc he.symm) (ih List.mem_cons_self)
      · exact ih (List.mem_cons_of_mem g h)

end Text

namespace Path

/-- Whether a field of a path means something. -/
def isName (f : Text) : Bool := f != [] && f != ['.']

theorem names_eq (p : Path) : p.names = (Text.fields '/' p.text).filter isName := rfl

theorem fields_ofNames {ns : List Text} (hne : ns ≠ []) (h : ∀ n ∈ ns, '/' ∉ n) :
    Text.fields '/' (ofNames ns) = ns := by
  induction ns with
  | nil => exact absurd rfl hne
  | cons n ns ih =>
    have hn := h n List.mem_cons_self
    cases ns with
    | nil => exact Text.fields_of_notMem hn
    | cons m ns =>
      have hrest := ih (List.cons_ne_nil m ns) fun k hk => h k (List.mem_cons_of_mem n hk)
      change Text.fields '/' (n ++ '/' :: ofNames (m :: ns)) = _
      rw [Text.fields_append_cons hn, hrest]

theorem names_ofNames {ns : List Text} (h : ∀ n ∈ ns, '/' ∉ n) :
    names ⟨ofNames ns⟩ = ns.filter isName := by
  cases ns with
  | nil => rfl
  | cons n ns => rw [names_eq, fields_ofNames (List.cons_ne_nil n ns) h]

/-- A path of names without slashes that does not begin with an empty one is relative. -/
theorem isAbsolute_ofNames {ns : List Text} (h : ∀ n ∈ ns, '/' ∉ n) (hne : [] ∉ ns.head?) :
    isAbsolute ⟨ofNames ns⟩ = false := by
  cases ns with
  | nil => rfl
  | cons n ns =>
    obtain ⟨c, r, rfl⟩ := List.exists_cons_of_ne_nil fun he : n = [] => hne (by rw [he]; rfl)
    have hc : c ≠ '/' := fun he => h _ List.mem_cons_self (by rw [he]; exact List.mem_cons_self)
    have hhead : (ofNames ((c :: r) :: ns)).head? = some c := by cases ns <;> rfl
    rw [isAbsolute, hhead]
    simpa using hc

/-! ## The fields in the middle -/

theorem filter_dropWhile_void (fs : List Text) :
    (fs.dropWhile fun f => f == [] || f == ['.']).filter isName = fs.filter isName := by
  induction fs with
  | nil => rfl
  | cons f fs ih =>
    rw [List.dropWhile_cons]
    split
    · rename_i hf
      have hvoid : isName f = false := by
        rw [Bool.or_eq_true, beq_iff_eq, beq_iff_eq] at hf
        obtain rfl | rfl := hf <;> rfl
      rw [ih, List.filter_cons_of_neg (ne_true_of_eq_false hvoid)]
    · rfl

/-- Dropping what means nothing at both ends keeps the names, and leaves a relative path. -/
theorem trimFields_spec (t : Text) :
    names ⟨trimFields t⟩ = names ⟨t⟩ ∧ isAbsolute ⟨trimFields t⟩ = false := by
  let void := fun f : Text => f == [] || f == ['.']
  let front := (Text.fields '/' t).dropWhile void
  let middle := (front.reverse.dropWhile void).reverse
  have hfront : middle <+: front := by
    have := List.reverse_prefix.mpr (List.dropWhile_suffix void (l := front.reverse))
    rwa [List.reverse_reverse] at this
  have hslash : ∀ n ∈ middle, '/' ∉ n := fun n hn =>
    Text.notMem_of_mem_fields ((List.dropWhile_suffix void).mem (hfront.mem hn))
  constructor
  · calc names ⟨ofNames middle⟩ = middle.filter isName := names_ofNames hslash
      _ = (front.reverse.filter isName).reverse := by
        rw [List.filter_reverse, filter_dropWhile_void]
      _ = front.filter isName := by rw [List.filter_reverse, List.reverse_reverse]
      _ = names ⟨t⟩ := filter_dropWhile_void _
  · refine isAbsolute_ofNames hslash fun hempty => ?_
    obtain ⟨rest, hrest⟩ := hfront
    have hhead : front.head? = some [] := by
      rw [← hrest, List.head?_append, Option.mem_def.mp hempty, Option.some_or]
    have hvoid := List.head?_dropWhile_not void (Text.fields '/' t)
    rw [show ((Text.fields '/' t).dropWhile void).head? = some [] from hhead] at hvoid
    cases hvoid

/-! ## Joining -/

/-- What a path is joined from stands in its text on both sides of a slash, or is all of it. -/
theorem join_cases {p q : Path} (hq : q.isAbsolute = false) :
    (p.text = [] ∧ p.join q = q) ∨
      ∃ front rest, p.text = front ++ rest ∧ (rest = [] ∨ rest = ['/']) ∧ p.text ≠ [] ∧
        p.join q = ⟨front ++ '/' :: q.text⟩ := by
  unfold join
  rw [hq, Bool.false_or]
  split
  · rename_i h
    exact .inl ⟨List.isEmpty_iff.mp h, rfl⟩
  · rename_i h
    have hne : p.text ≠ [] := mt List.isEmpty_iff.mpr h
    refine .inr ?_
    split
    · rename_i hl
      obtain ⟨front, hf⟩ := List.getLast?_eq_some_iff.mp (beq_iff_eq.mp hl)
      exact ⟨front, ['/'], hf, .inr rfl, hne, by rw [hf, List.append_assoc]; rfl⟩
    · exact ⟨p.text, [], (List.append_nil _).symm, .inl rfl, hne, rfl⟩

theorem names_join {p q : Path} (hq : q.isAbsolute = false) :
    (p.join q).names = p.names ++ q.names := by
  obtain ⟨hp, hj⟩ | ⟨front, rest, hp, hrest, -, hj⟩ := join_cases (p := p) hq
  · rw [hj, names_eq p, hp]
    rfl
  · have hfront : p.names = (Text.fields '/' front).filter isName := by
      rw [names_eq, hp]
      obtain rfl | rfl := hrest
      · rw [List.append_nil]
      · rw [Text.fields_append, List.filter_append]
        exact List.append_nil _
    rw [hj, hfront, names_eq, names_eq, Text.fields_append, List.filter_append]

theorem isAbsolute_join {p q : Path} (hq : q.isAbsolute = false) :
    (p.join q).isAbsolute = p.isAbsolute := by
  obtain ⟨hp, hj⟩ | ⟨front, rest, hp, hrest, hne, hj⟩ := join_cases (p := p) hq
  · rw [hj, hq, isAbsolute, hp]
    rfl
  · rw [hj, isAbsolute, isAbsolute, hp]
    cases front with
    | cons c front => rfl
    | nil =>
      obtain rfl | rfl := hrest
      · exact absurd hp hne
      · rfl

/-! ## At the home directory -/

/-- The first component of a path, as it is written. -/
def first? (p : Path) : Option Text := (Text.fields '/' p.text).head?

/-- `q` is `p` with the home in place of its first name. -/
structure Rooted (home p q : Path) : Prop where
  absolute : q.isAbsolute = home.isAbsolute
  names : q.names = home.names ++ p.names.tail

theorem after?_eq_none {name : Text} {p : Path} (h : p.first? ≠ some name) :
    p.after? name = none := by
  obtain ⟨f, fs, hf⟩ := Text.exists_fields_cons '/' p.text
  have hne : f ≠ name := fun he => h (by rw [first?, hf, he]; rfl)
  rw [after?, hf]
  exact if_neg hne

theorem exists_after? {name : Text} {p : Path} (hn : isName name = true)
    (h : p.first? = some name) :
    ∃ rest, p.after? name = some rest ∧ rest.isAbsolute = false ∧ p.names = name :: rest.names := by
  obtain ⟨f, fs, hf⟩ := Text.exists_fields_cons '/' p.text
  rw [first?, hf] at h
  obtain rfl := Option.some.inj h
  have hslash : ∀ n ∈ fs, '/' ∉ n := fun n hm =>
    Text.notMem_of_mem_fields (by rw [hf]; exact List.mem_cons_of_mem f hm)
  obtain ⟨hnames, hrel⟩ := trimFields_spec (ofNames fs)
  refine ⟨_, by rw [after?, hf]; exact if_pos rfl, hrel, ?_⟩
  rw [hnames, names_ofNames hslash, names_eq, hf, List.filter_cons_of_pos hn]

end Path

namespace Settings

theorem expandHome_of_ne {p : Path} (h : p.first? ≠ some ['~']) (home : Option Path) :
    expandHome home p = p := by
  unfold expandHome
  rw [show p.after? "~" = none from Path.after?_eq_none h]

theorem expandHome_none (p : Path) : expandHome none p = p := by
  unfold expandHome
  cases p.after? "~" <;> rfl

theorem rooted_expandHome {p : Path} (h : p.first? = some ['~']) (home : Path) :
    Path.Rooted home p (expandHome (some home) p) := by
  obtain ⟨rest, hafter, hrel, hnames⟩ := Path.exists_after? (by decide) h
  unfold expandHome
  rw [show p.after? "~" = some rest from hafter]
  exact ⟨Path.isAbsolute_join hrel, by rw [hnames]; exact Path.names_join hrel⟩

example : expandHome (some "/home/u/") "~//code/./x/" = "/home/u/code/./x" := by decide

end Settings
end LineRepl
