import Lexis.Pattern.Basic
import Lexis.Proofs.Grammar
import Lexis.Proofs.Listings
import Lexis.Proofs.RegexLanguage

/-!
# Addresses

The pattern for addresses repeats labels with a point behind each, and has one more label behind
them whose letters may all stand in the repeated ones too. So where its last label begins is only
known from the end of the text. What it accepts is said here without such a search: the text is
split at its `@`, and what stands behind that at each point, and each part is looked at by itself.

Results:
1. `Regex.mem_language_many_behind`: repeated texts with the same mark behind each.
2. `Pattern.mem_language_emailRegex`: the texts of the pattern, put together from their parts.
3. `email_pattern_iff_isAddress`: the pattern accepts exactly the addresses.
-/

namespace Lexis

open Alphabet

/-! ## Addresses by their parts -/

/-- A domain: two labels or more with points between them, and none of them empty. The first is made
of letters, digits and tildes, the last of three small letters, and those between them of letters,
digits and hyphens. -/
def IsDomain (domain : Text) : Prop :=
  (∀ label ∈ domain.splitOn '.', label ≠ []) ∧
  ∃ first between last, domain.splitOn '.' = first :: (between ++ [last]) ∧
    (∀ c ∈ first, c.isAlphanum = true ∨ c = '~') ∧
    (∀ label ∈ between, ∀ c ∈ label, c.isAlphanum = true ∨ c = '-') ∧
    last.length = 3 ∧ ∀ c ∈ last, c.isLower = true

/-- An address: a text with one `@`, in front of which stand two or more letters, digits, points and
underscores, and behind which stands a domain. -/
def IsAddress (t : Text) : Prop :=
  t.count '@' = 1 ∧
  ∃ name domain, t = name ++ '@' :: domain ∧ 2 ≤ name.length ∧
    (∀ c ∈ name, c.isAlphanum = true ∨ c = '.' ∨ c = '_') ∧ IsDomain domain

variable {t : Text} {c : Char}

/-! ## The characters of the pattern -/

namespace Alphabet

theorem mem_alphanumeric_iff : c ∈ alphanumeric ↔ c.isAlphanum = true := by
  simp [alphanumeric, mem_letters_iff, mem_digits_iff, Char.isAlphanum, or_comm]

end Alphabet

namespace Pattern

theorem mem_smallLetters_iff : c ∈ smallLetters ↔ c.isLower = true := by
  constructor
  · have all : ∀ d ∈ smallLetters, d.isLower = true := forall_mem_of_all (by decide)
    exact all c
  · intro h
    have all : ∀ n < 123, 97 ≤ n → Char.ofNat n ∈ smallLetters := by decide +kernel
    have bounds : 97 ≤ c.toNat ∧ c.toNat ≤ 122 := by
      change (c.val ≥ 97 && c.val ≤ 122) = true at h
      simpa [UInt32.le_iff_toNat_le] using h
    have mem := all c.toNat (by omega) bounds.1
    rwa [Char.ofNat_toNat] at mem

theorem nameChar_iff : nameChar c = true ↔ c.isAlphanum = true ∨ c = '.' ∨ c = '_' := by
  simp [nameChar, mem_alphanumeric_iff, or_assoc]

theorem firstLabelChar_iff : firstLabelChar c = true ↔ c.isAlphanum = true ∨ c = '~' := by
  simp [firstLabelChar, mem_alphanumeric_iff]

theorem labelChar_iff : labelChar c = true ↔ c.isAlphanum = true ∨ c = '-' := by
  simp [labelChar, mem_alphanumeric_iff]

end Pattern

/-! ## The texts of the pattern -/

/-- Repeated texts of an expression, with the same mark behind each. -/
theorem Regex.mem_language_many_behind {r : Regex} {mark : Text} :
    t ∈ (many (both r (literal mark))).language ↔
    ∃ parts : List Text, (∀ part ∈ parts, part ∈ r.language) ∧
      parts.flatMap (· ++ mark) = t := by
  simp only [mem_language_many, mem_language_both, mem_language_literal, exists_eq_left]
  constructor
  · rintro ⟨us, all, rfl⟩
    induction us with
    | nil => exact ⟨[], by simp, rfl⟩
    | cons u us ih =>
      obtain ⟨⟨part, mem, rfl⟩, others⟩ := List.forall_mem_cons.mp all
      obtain ⟨parts, members, same⟩ := ih others
      exact ⟨part :: parts, List.forall_mem_cons.mpr ⟨mem, members⟩, by simp [same]⟩
  · rintro ⟨parts, members, rfl⟩
    refine ⟨parts.map (· ++ mark), ?_, rfl⟩
    intro u mem
    obtain ⟨part, among, rfl⟩ := List.mem_map.mp mem
    exact ⟨part, members part among, rfl⟩

theorem intercalate_labels (first last : Text) (between : List Text) :
    ['.'].intercalate (first :: (between ++ [last])) =
      first ++ '.' :: (between.flatMap (· ++ ['.']) ++ last) := by
  induction between generalizing first with
  | nil => simp
  | cons label between ih => simp [ih]

namespace Pattern

open Regex

theorem two_or_more {test : Char → Bool} :
    (∃ u, (u.length = 2 ∧ ∀ c ∈ u, test c = true) ∧ ∃ v, (∀ c ∈ v, test c = true) ∧ u ++ v = t) ↔
    2 ≤ t.length ∧ ∀ c ∈ t, test c = true := by
  constructor
  · rintro ⟨u, ⟨length, left⟩, v, right, rfl⟩
    refine ⟨by simp [length], ?_⟩
    simpa [or_imp, forall_and] using ⟨left, right⟩
  · rintro ⟨length, all⟩
    refine ⟨t.take 2, ⟨by simpa using length, ?_⟩, t.drop 2, ?_, List.take_append_drop 2 t⟩
    · exact fun c mem => all c (List.mem_of_mem_take mem)
    · exact fun c mem => all c (List.mem_of_mem_drop mem)

/-- The texts of the pattern: a name, an `@`, and labels with points between them. -/
theorem mem_language_emailRegex : t ∈ emailRegex.language ↔
    ∃ name first between last, (2 ≤ name.length ∧ ∀ c ∈ name, nameChar c = true) ∧
      (first ≠ [] ∧ ∀ c ∈ first, firstLabelChar c = true) ∧
      (∀ label ∈ between, label ≠ [] ∧ ∀ c ∈ label, labelChar c = true) ∧
      (last.length = 3 ∧ ∀ c ∈ last, c ∈ smallLetters) ∧
      name ++ '@' :: ['.'].intercalate (first :: (between ++ [last])) = t := by
  simp only [emailRegex, mem_language_inOrder_cons, mem_language_inOrder_nil,
    mem_language_times_one, mem_language_many_one, mem_language_literal,
    mem_language_atLeastOnce_one, mem_language_many_behind, exists_eq_left,
    exists_exists_and_eq_and, exists_exists_and_exists_and_eq_and, List.append_nil,
    decide_eq_true_eq, ← two_or_more, intercalate_labels]
  constructor
  · rintro ⟨u, two, v, more, _, ⟨first, start, between, inside, last, stop, rfl⟩, rfl⟩
    exact ⟨u ++ v, first, between, last, ⟨u, two, v, more, rfl⟩, start, inside, stop, by simp⟩
  · rintro ⟨_, first, between, last, ⟨u, two, v, more, rfl⟩, start, inside, stop, rfl⟩
    exact ⟨u, two, v, more, _, ⟨first, start, between, inside, last, stop, rfl⟩, by simp⟩

end Pattern

/-! ## Splitting -/

/-- No label that the pattern allows holds a point or an `@`. -/
theorem mark_not_mem_label {first last : Text} {between : List Text}
    (start : ∀ c ∈ first, c.isAlphanum = true ∨ c = '~')
    (inside : ∀ label ∈ between, ∀ c ∈ label, c.isAlphanum = true ∨ c = '-')
    (stop : ∀ c ∈ last, c.isLower = true) {mark : Char} (marks : mark ∈ ['.', '@']) :
    ∀ label ∈ first :: (between ++ [last]), mark ∉ label := by
  have plain : mark.isAlphanum = false ∧ mark ≠ '~' ∧ mark ≠ '-' ∧ mark.isLower = false := by
    have all : ∀ d ∈ ['.', '@'], d.isAlphanum = false ∧ d ≠ '~' ∧ d ≠ '-' ∧ d.isLower = false :=
      forall_mem_of_all (by decide)
    exact all mark marks
  intro label mem within
  rcases List.mem_cons.mp mem with rfl | mem
  · simpa [plain] using start mark within
  rcases List.mem_append.mp mem with among | final
  · simpa [plain] using inside label among mark within
  · obtain rfl := List.mem_singleton.mp final
    simpa [plain] using stop mark within

/-- The labels that the pattern allows, written with points between them, are the domains. -/
theorem isDomain_iff {domain : Text} : IsDomain domain ↔
    ∃ first between last, (first ≠ [] ∧ ∀ c ∈ first, Pattern.firstLabelChar c = true) ∧
      (∀ label ∈ between, label ≠ [] ∧ ∀ c ∈ label, Pattern.labelChar c = true) ∧
      (last.length = 3 ∧ ∀ c ∈ last, c ∈ Pattern.smallLetters) ∧
      ['.'].intercalate (first :: (between ++ [last])) = domain := by
  simp only [Pattern.firstLabelChar_iff, Pattern.labelChar_iff,
    Pattern.mem_smallLetters_iff]
  constructor
  · rintro ⟨filled, first, between, last, split, start, inside, length, stop⟩
    have joined : ['.'].intercalate (domain.splitOn '.') = domain := List.intercalate_splitOn '.'
    rw [split] at filled joined
    refine ⟨first, between, last, ⟨filled first (by simp), start⟩, ?_, ⟨length, stop⟩, joined⟩
    exact fun label mem => ⟨filled label (by simp [mem]), inside label mem⟩
  · rintro ⟨first, between, last, ⟨filled, start⟩, inside, ⟨length, stop⟩, rfl⟩
    obtain ⟨nonempty, inside⟩ := forall₂_and.mp inside
    -- no label holds a point, so splitting gives the labels back
    have plain := mark_not_mem_label start inside stop List.mem_cons_self
    have split := List.splitOn_intercalate '.' plain (List.cons_ne_nil _ _)
    refine ⟨?_, first, between, last, split, start, inside, length, stop⟩
    rw [split]
    have ne : last ≠ [] := List.ne_nil_of_length_eq_add_one length
    simpa [or_imp, forall_and] using ⟨filled, nonempty, ne⟩

theorem IsDomain.at_not_mem {domain : Text} (h : IsDomain domain) : '@' ∉ domain := by
  obtain ⟨_, first, between, last, split, start, inside, _, stop⟩ := h
  have joined : ['.'].intercalate (domain.splitOn '.') = domain := List.intercalate_splitOn '.'
  intro mem
  rw [← joined, split] at mem
  rcases Text.mem_intercalate mem with point | ⟨label, among, within⟩
  · exact absurd point (by decide)
  · exact mark_not_mem_label start inside stop (by simp) label among within

/-- The pattern for addresses accepts exactly the addresses. -/
theorem email_pattern_iff_isAddress (t : Text) :
    ∃ p, Pattern.find "EMAIL".toList = .ok p ∧ (p.accepts t = true ↔ IsAddress t) := by
  refine ⟨.email, Pattern.find_name .email, ?_⟩
  rw [Pattern.accepts, Regex.accepts_iff_mem_language, Pattern.regex,
    Pattern.mem_language_emailRegex]
  constructor
  · rintro ⟨name, first, between, last, ⟨length, named⟩, start, inside, stop, rfl⟩
    have domain := isDomain_iff.mpr ⟨first, between, last, start, inside, stop, rfl⟩
    have noAt : '@' ∉ name := fun mem => absurd (named _ mem) (by decide)
    refine ⟨?_, name, _, rfl, length, fun c mem => Pattern.nameChar_iff.mp (named c mem), domain⟩
    rw [List.count_append, List.count_cons_self, List.count_eq_zero.mpr noAt,
      List.count_eq_zero.mpr domain.at_not_mem]
  · rintro ⟨_, name, domain, rfl, length, named, isDomain⟩
    obtain ⟨first, between, last, start, inside, stop, rfl⟩ := isDomain_iff.mp isDomain
    exact ⟨name, first, between, last,
      ⟨length, fun c mem => Pattern.nameChar_iff.mpr (named c mem)⟩, start, inside, stop, rfl⟩

-- three small letters with a point behind them are not the last label
example : Pattern.email.accepts "me@host.abc.def".toList = true ∧
    Pattern.email.accepts "me@host.abc.".toList = false := by
  decide +kernel

end Lexis
