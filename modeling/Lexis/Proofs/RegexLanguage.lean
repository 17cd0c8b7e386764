import Lexis.Pattern.Regex
import Mathlib.Computability.Language

/-!
# The language of a regular expression

What an expression stands for, said without regard to how texts are matched: each expression has
its language, put together from those of its parts by union, concatenation and repetition
(`Regex.language`). The matcher is measured against it: a derivative has as its language what may
follow the character, so going through a whole text by derivatives tells whether the text is in the
language.

Results:
1. `nil_mem_language`, `mem_language_alternative`, `mem_language_sequence`: the test for the empty
   text, and that dropping expressions which match nothing changes no language.
2. `mem_language_derivative`: what may follow a character.
3. `accepts_iff_mem_language`: a text is accepted exactly if it is in the language.
4. `mem_language_literal`, `mem_language_many_one`, `mem_language_times_one` and their like: the
   languages of the expressions that patterns are written with.
-/

namespace Lexis.Regex

open scoped Computability

/-- The texts that an expression stands for. -/
def language : Regex → Language Char
  | nothing => 0
  | empty => 1
  | one test => {t | ∃ c, test c = true ∧ [c] = t}
  | either r s => r.language + s.language
  | both r s => r.language * s.language
  | many r => r.language∗

variable {r s : Regex} {c : Char} {t : Text}

/-! ## Membership, by expression -/

@[simp] theorem mem_language_nothing : t ∉ nothing.language :=
  Language.notMem_zero t

@[simp] theorem mem_language_empty : t ∈ empty.language ↔ t = [] := Iff.rfl

@[simp] theorem mem_language_one {test : Char → Bool} :
    t ∈ (one test).language ↔ ∃ c, test c = true ∧ [c] = t := Iff.rfl

@[simp] theorem mem_language_either :
    t ∈ (either r s).language ↔ t ∈ r.language ∨ t ∈ s.language := Iff.rfl

theorem mem_language_both :
    t ∈ (both r s).language ↔ ∃ u ∈ r.language, ∃ v ∈ s.language, u ++ v = t :=
  Language.mem_mul

theorem mem_language_many :
    t ∈ (many r).language ↔ ∃ us : List Text, (∀ u ∈ us, u ∈ r.language) ∧ us.flatten = t := by
  rw [language, Language.mem_kstar]
  simp only [and_comm, eq_comm]

/-! ## The empty text -/

theorem nil_mem_language : [] ∈ r.language ↔ r.matchesEmpty = true := by
  induction r with
  | nothing => simp [matchesEmpty]
  | empty => simp [matchesEmpty]
  | one test => simp [matchesEmpty]
  | either r s ihr ihs => simp [matchesEmpty, ihr, ihs]
  | both r s ihr ihs => simp [matchesEmpty, mem_language_both, ihr, ihs]
  | many r _ => simp [matchesEmpty, language, Language.nil_mem_kstar]

/-! ## Dropping expressions that match nothing -/

@[simp] theorem mem_language_alternative :
    t ∈ (alternative r s).language ↔ t ∈ r.language ∨ t ∈ s.language := by
  unfold alternative
  split <;> simp

@[simp] theorem mem_language_sequence :
    t ∈ (sequence r s).language ↔ ∃ u ∈ r.language, ∃ v ∈ s.language, u ++ v = t := by
  unfold sequence
  split <;> simp [mem_language_both]

/-! ## Texts by their first character -/

/-- A text of a concatenation takes its first character from the first part, unless that part may
be empty. -/
theorem cons_mem_mul {l m : Language Char} :
    c :: t ∈ l * m ↔ (∃ u, c :: u ∈ l ∧ ∃ v ∈ m, u ++ v = t) ∨ [] ∈ l ∧ c :: t ∈ m := by
  rw [Language.mem_mul]
  constructor
  · rintro ⟨u, left, v, right, eq⟩
    cases u with
    | nil => exact .inr ⟨left, eq ▸ right⟩
    | cons d u =>
      obtain ⟨rfl, rfl⟩ := List.cons.inj eq
      exact .inl ⟨u, left, v, right, rfl⟩
  · rintro (⟨u, left, v, right, rfl⟩ | ⟨left, right⟩)
    · exact ⟨c :: u, left, v, right, rfl⟩
    · exact ⟨[], left, c :: t, right, rfl⟩

/-- A text of a repetition takes its first character from the first repeated text that is not
empty. -/
theorem cons_mem_kstar {l : Language Char} :
    c :: t ∈ l∗ ↔ ∃ u, c :: u ∈ l ∧ ∃ v ∈ l∗, u ++ v = t := by
  constructor
  · rw [Language.mem_kstar_iff_exists_nonempty]
    rintro ⟨us, eq, all⟩
    cases us with
    | nil => cases eq
    | cons first us =>
      obtain ⟨⟨left, ne⟩, others⟩ := List.forall_mem_cons.mp all
      obtain ⟨d, u, rfl⟩ := List.exists_cons_of_ne_nil ne
      obtain ⟨rfl, rfl⟩ := List.cons.inj eq
      exact ⟨u, left, us.flatten, Language.join_mem_kstar fun v mem => (others v mem).1, rfl⟩
  · rintro ⟨u, left, v, ⟨us, rfl, all⟩, rfl⟩
    exact ⟨(c :: u) :: us, rfl, List.forall_mem_cons.mpr ⟨left, all⟩⟩

/-- A derivative stands for what may follow the character. -/
theorem mem_language_derivative (c : Char) (r : Regex) (t : Text) :
    t ∈ (r.derivative c).language ↔ c :: t ∈ r.language := by
  induction r generalizing t with
  | nothing => simp [derivative]
  | empty => simp [derivative]
  | one test =>
    rw [derivative]
    split <;> simp_all
  | either r s ihr ihs => simp [derivative, ihr, ihs]
  | both r s ihr ihs =>
    -- the second part gives the character if the first may be empty
    rw [language, cons_mem_mul, nil_mem_language, derivative]
    split
    · next mayBeEmpty => simp [ihr, ihs, mayBeEmpty]
    · next notEmpty => simp [ihr, notEmpty]
  | many r ih =>
    rw [language, cons_mem_kstar, derivative, mem_language_sequence]
    simp only [ih]
    rfl

/-- A text is accepted exactly if it is one of those that the expression stands for. -/
theorem accepts_iff_mem_language : r.accepts t = true ↔ t ∈ r.language := by
  induction t generalizing r with
  | nil => exact nil_mem_language.symm
  | cons c t ih => rw [accepts, ih, mem_language_derivative]

/-! ## The expressions that patterns are written with -/

@[simp] theorem mem_language_inOrder_nil : t ∈ (inOrder []).language ↔ t = [] := Iff.rfl

theorem mem_language_inOrder_cons {rs : List Regex} :
    t ∈ (inOrder (r :: rs)).language ↔
      ∃ u ∈ r.language, ∃ v ∈ (inOrder rs).language, u ++ v = t :=
  mem_language_both

@[simp] theorem mem_language_literal {u : Text} : t ∈ (literal u).language ↔ t = u := by
  induction u generalizing t with
  | nil => exact mem_language_inOrder_nil
  | cons c u ih =>
    change t ∈ (both (one (· = c)) (literal u)).language ↔ t = c :: u
    simp [mem_language_both, ih, eq_comm]

@[simp] theorem mem_language_optional :
    t ∈ (optional r).language ↔ t ∈ r.language ∨ t = [] := Iff.rfl

@[simp] theorem mem_language_many_one {test : Char → Bool} :
    t ∈ (many (one test)).language ↔ ∀ c ∈ t, test c = true := by
  rw [language]
  induction t with
  | nil => simpa using Language.nil_mem_kstar _
  | cons c t ih => simp [cons_mem_kstar, ih]

@[simp] theorem mem_language_atLeastOnce_one {test : Char → Bool} :
    t ∈ (atLeastOnce (one test)).language ↔ t ≠ [] ∧ ∀ c ∈ t, test c = true := by
  cases t with
  | nil => simp [atLeastOnce, mem_language_both]
  | cons c t => simp [atLeastOnce, mem_language_both]

@[simp] theorem mem_language_times_one {test : Char → Bool} {n : Nat} :
    t ∈ (times n (one test)).language ↔ t.length = n ∧ ∀ c ∈ t, test c = true := by
  induction n generalizing t with
  | zero =>
    rw [times, List.replicate_zero, mem_language_inOrder_nil, List.length_eq_zero_iff]
    exact ⟨fun eq => ⟨eq, by simp [eq]⟩, And.left⟩
  | succ n ih =>
    change t ∈ (both (one test) (times n (one test))).language ↔ _
    cases t with
    | nil => simp [mem_language_both]
    | cons c t => simp [mem_language_both, ih, and_left_comm]

end Lexis.Regex
