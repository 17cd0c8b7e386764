import Lexis.Proofs.Grammar
import Lexis.Proofs.Reading

/-!
# Reading in parts

A space, or a quote, is never the continuation of a token that has begun with anything else, and
what stands behind the closing quote of a literal is no part of it. So a text can be parted in front
of a space or a quote: if the first part is read to its end, strict reading of the whole is strict
reading of the first part, then of the second (`Options.read_append`). A token that ends within the
first part is not changed by what is behind (`Scan.token_of_append`).

Results:
1. `Longest.append`, `Longest.of_append`: the longest lexeme, with more or less text behind it.
2. `Options.read_append`: strict reading of a text parted at a boundary.
3. `Options.exists_of_refused`: a text that is refused is parted in front of the faulty literal.
-/

namespace Lexis

open Alphabet

/-- What no token goes on with, unless it has begun with it. -/
def boundary : Text := [' ', '\'', '"']

/-- The reading of a text in two parts, if the first is read to its end. -/
def Reading.append (r s : Reading) : Reading :=
  ⟨r.tokens ++ s.tokens, r.accepted ++ s.accepted, s.refusal⟩

namespace Reading

@[simp] theorem append_finished (r : Reading) : finished.append r = r := rfl

@[simp] theorem cons_append (t : Token) (f : Option Fault) (r s : Reading) :
    (r.cons t f).append s = (r.append s).cons t f := by
  simp [cons, append]

@[simp] theorem shift_append (n : Nat) (r s : Reading) :
    (r.append s).shift n = (r.shift n).append (s.shift n) := by
  simp [shift, append]

end Reading

/-! ## The longest lexeme with text behind it -/

variable {kind : Kind} {c : Char} {l t r : Text}

theorem Spelling.not_boundary (h : Spelling kind (c :: l)) (first : c ∉ boundary) :
    ∀ d ∈ c :: l, d ∉ boundary := by
  have digit {d : Char} (h : d.isDigit = true) : d ∉ boundary := by
    have all : ∀ d ∈ digits, d ∉ boundary := forall_mem_of_all (by decide)
    exact all d (mem_digits_iff.mpr h)
  rw [List.forall_mem_cons]
  refine ⟨first, ?_⟩
  cases h.shape with
  | identifier _ rest =>
    have all : ∀ d ∈ identChars, d ∉ boundary := forall_mem_of_all (by decide)
    exact fun d mem => all d (rest d mem)
  | integer _ integer => exact fun d mem => digit (digits_of_integer_cons integer d mem)
  | decimal _ integer fraction eq =>
    subst eq
    intro d mem
    rcases List.mem_append.mp mem with mem | mem
    · exact digit (digits_of_integer_cons integer d mem)
    rcases List.mem_cons.mp mem with rfl | mem
    · decide
    · exact digit (fraction.2 d mem)
  | character quote => exact absurd first (by rw [quote]; decide)
  | string quote => exact absurd first (by rw [quote]; decide)
  | operator _ _ _ _ rest =>
    rcases rest with rfl | ⟨d, paired, rfl⟩
    · exact fun _ mem => absurd mem List.not_mem_nil
    · have all : ∀ p ∈ operatorPairs, p.2 ∉ boundary := by decide
      obtain ⟨before, behind, eq, _⟩ := List.lookup_eq_some_iff.mp paired
      rintro e mem
      obtain rfl := List.mem_singleton.mp mem
      exact all (c, e) (by rw [eq]; simp)

/-- A lexeme that does not begin with a boundary ends before the first boundary behind it. -/
theorem Spelling.prefix_of_append (h : Spelling kind (c :: l)) (first : c ∉ boundary)
    (fresh : ∀ q ∈ r.head?, q ∈ boundary) (pre : c :: l <+: t ++ r) : c :: l <+: t := by
  by_cases le : (c :: l).length ≤ t.length
  · exact List.prefix_of_prefix_length_le pre (List.prefix_append t r) le
  cases r with
  | nil => rwa [List.append_nil] at pre
  | cons q r =>
    have reach : t ++ [q] <+: c :: l := by
      refine List.prefix_of_prefix_length_le ⟨r, by simp⟩ pre ?_
      rw [List.length_append, List.length_singleton]
      exact Nat.lt_of_not_le le
    have mem : q ∈ c :: l := reach.subset (by simp)
    exact absurd (fresh q rfl) (h.not_boundary first q mem)

namespace Longest

/-- Less text behind the lexeme makes no other lexeme longer. -/
theorem of_append (h : Longest kind l (t ++ r)) (pre : l <+: t) : Longest kind l t :=
  ⟨pre, h.2.1, fun other m within => h.2.2 other m (within.trans (List.prefix_append t r))⟩

theorem append (h : Longest kind l (c :: t)) (space : c ≠ ' ')
    (fresh : ∀ q ∈ r.head?, q ∈ boundary) : Longest kind l (c :: t ++ r) := by
  obtain ⟨pre, spelled, bound⟩ := h
  have reach := pre.trans (List.prefix_append (c :: t) r)
  refine ⟨reach, spelled, fun other m pre' spelled' => ?_⟩
  obtain ⟨d, l, rfl⟩ := List.exists_cons_of_ne_nil spelled.ne_nil
  obtain ⟨e, m, rfl⟩ := List.exists_cons_of_ne_nil spelled'.ne_nil
  obtain ⟨rfl, within⟩ := List.cons_prefix_cons.mp reach
  obtain ⟨rfl, within'⟩ := List.cons_prefix_cons.mp pre'
  by_cases first : e ∉ boundary
  · exact bound other _ (spelled'.prefix_of_append first fresh pre') spelled'
  simp only [boundary, List.mem_cons, List.not_mem_nil, or_false, not_not] at first
  rcases first with rfl | rfl | rfl
  · exact absurd rfl space
  · have token := (Scan.character_of_quote spelled within).2
    have token' := (Scan.character_of_quote spelled' within').2
    exact Nat.succ_le_succ (Nat.le_of_eq (Scan.token.inj (token'.symm.trans token)).2.1)
  · have token := (Scan.string_of_quote spelled within).2
    have token' := (Scan.string_of_quote spelled' within').2
    exact Nat.succ_le_succ (Nat.le_of_eq (Scan.token.inj (token'.symm.trans token)).2.1)

end Longest

namespace Scan

variable {n : Nat} {flaw : Option Flaw}

theorem take_append_of_le (le : n ≤ t.length) :
    (c :: (t ++ r)).take (n + 1) = (c :: t).take (n + 1) := by
  rw [List.take_succ_cons, List.take_succ_cons, List.take_append_of_le_length le]

/-- A token does not change with what is behind it: it is the same on less text. -/
theorem token_of_append (space : c ≠ ' ') (le : n ≤ t.length)
    (h : ofText .strict c (t ++ r) = .token kind n flaw) :
    ofText .strict c t = .token kind n flaw := by
  obtain ⟨longest, rfl⟩ := longest_of_token h
  rw [take_append_of_le le] at longest
  exact (token_iff_longest space le).mpr (Longest.of_append (t := c :: t) longest
    (List.take_prefix _ _))

theorem token_append (space : c ≠ ' ') (fresh : ∀ q ∈ r.head?, q ∈ boundary)
    (h : ofText .strict c t = .token kind n flaw) :
    ofText .strict c (t ++ r) = .token kind n flaw := by
  have le := further_le_of_token h
  obtain ⟨longest, rfl⟩ := longest_of_token h
  have behind := longest.append space fresh
  rw [List.cons_append, ← take_append_of_le (r := r) le] at behind
  refine (token_iff_longest space ?_).mpr behind
  rw [List.length_append]
  exact Nat.le_add_right_of_le le

end Scan

/-! ## Readings of texts in parts -/

namespace Options

variable {o : Options}

/-- Strict reading of a text parted at a boundary. -/
theorem read_append (strict : o.mode = .strict) (fresh : ∀ q ∈ r.head?, q ∈ boundary)
    (finished : (o.read t).refusal = none) :
    o.read (t ++ r) = (o.read t).append ((o.read r).shift t.length) := by
  induction t using o.read_induction with
  | nil => simp
  | white c t white ih =>
    rw [read_white white] at finished ⊢
    rw [List.cons_append, read_white white, ih (Option.map_eq_none_iff.mp finished),
      Reading.shift_append, Reading.shift_shift, List.length_cons, Nat.add_comm 1]
  | token c t kind n flaw black scan le ih =>
    have scan' := scan
    rw [strict] at scan'
    have behind := Scan.token_append (ne_space_of_not_mem black) fresh scan'
    rw [← strict] at behind
    rw [read_token black scan] at finished ⊢
    rw [List.cons_append, read_token black behind, List.drop_append_of_le_length le,
      ih (Option.map_eq_none_iff.mp finished), Scan.take_append_of_le le, Reading.cons_append,
      Reading.shift_append, Reading.shift_shift]
    have length : n + 1 + (t.drop n).length = (c :: t).length := by
      rw [List.length_drop, List.length_cons]
      omega
    rw [length]
  | refused c t flaw black scan =>
    rw [read_refused black scan] at finished
    cases finished

/-- A text that is refused is parted in front of the faulty literal: what stands before it is read
to its end. -/
theorem exists_of_refused {fault : Fault} (strict : o.mode = .strict)
    (refused : (o.read t).refusal = some fault) :
    ∃ a c u flaw, t = a ++ c :: u ∧ (o.read a).refusal = none ∧ c ∉ o.whitespace ∧
      Scan.ofText .strict c u = .refused flaw ∧ fault = flaw.place a.length := by
  induction t using o.read_induction generalizing fault with
  | nil =>
    rw [read_nil] at refused
    cases refused
  | white c t white ih =>
    rw [read_white white] at refused
    obtain ⟨fault, refused', rfl⟩ := Option.map_eq_some_iff.mp refused
    obtain ⟨a, d, u, flaw, rfl, finished, black, scan, rfl⟩ := ih refused'
    refine ⟨c :: a, d, u, flaw, rfl, ?_, black, scan, ?_⟩
    · rw [read_white white, Reading.shift, finished, Option.map_none]
    · rw [Flaw.shift_place, List.length_cons, Nat.add_comm]
  | token c t kind n flaw black scan le ih =>
    rw [read_token black scan] at refused
    obtain ⟨fault, refused', rfl⟩ := Option.map_eq_some_iff.mp refused
    obtain ⟨a, d, u, flaw', eq, finished, black', scan', rfl⟩ := ih refused'
    refine ⟨c :: (t.take n ++ a), d, u, flaw', ?_, ?_, black', scan', ?_⟩
    · rw [List.cons_append, List.append_assoc, ← eq, List.take_append_drop]
    · have parts : t = (t.take n ++ a) ++ d :: u := by
        rw [List.append_assoc, ← eq, List.take_append_drop]
      -- the token ends in front of the faulty literal, so it is the same without it
      rw [strict, parts] at scan
      have length : (t.take n).length = n := List.length_take_of_le le
      have before := Scan.token_of_append (ne_space_of_not_mem black) (by simp [length]) scan
      rw [← strict] at before
      rw [read_token black before, List.drop_left' length]
      simp [Reading.cons, Reading.shift, finished]
    · simp only [Flaw.shift_place, List.length_cons, List.length_append,
        List.length_take_of_le le]
      congr 1
      omega
  | refused c t flaw black scan =>
    rw [read_refused black scan] at refused
    cases refused
    rw [strict] at scan
    exact ⟨[], c, t, flaw, rfl, by simp [Reading.finished], black, scan, rfl⟩

end Options

end Lexis
