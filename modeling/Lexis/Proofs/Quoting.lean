import Lexis.Text.Quoted

/-!
# What is shown is printable

Numerals and quoted texts are made of printable characters, whatever they stand for. Neither a line
end nor an escape character gets into a message through them.

Results:
1. `isPrintable_of_mem_ofInt`: numerals.
2. `isPrintable_of_mem_quoted`: texts between quotes.
-/

namespace Lexis.Text

/-! ## Numerals -/

/-- The digits that numerals are written with, up to base 16. -/
theorem digitChar_mem (d : Nat) : Nat.digitChar d ∈ "0123456789abcdef*".toList := by
  refine Decidable.byContradiction fun other => ?_
  exact Nat.digitChar_ne (Nat.digitChar d) (by simpa [and_assoc] using other) rfl

theorem exists_digitChar_of_mem_toDigits {base n : Nat} {c : Char} (large : 1 < base)
    (h : c ∈ Nat.toDigits base n) : ∃ d, c = Nat.digitChar d := by
  induction n using Nat.strongRecOn with
  | ind n ih =>
    by_cases small : n < base
    · rw [Nat.toDigits_of_lt_base small] at h
      exact ⟨n, List.mem_singleton.mp h⟩
    · have le := Nat.le_of_not_lt small
      rw [Nat.toDigits_of_base_le large le] at h
      rcases List.mem_append.mp h with front | last
      · exact ih (n / base) (Nat.div_lt_self (by omega) large) front
      · exact ⟨n % base, List.mem_singleton.mp last⟩

theorem isPrintable_digitChar (d : Nat) :
    isPrintable (Nat.digitChar d) = true ∧ isPrintable (Nat.digitChar d).toUpper = true := by
  have all : ("0123456789abcdef*".toList.all fun c => isPrintable c && isPrintable c.toUpper) =
      true := by decide
  have both := List.all_eq_true.mp all _ (digitChar_mem d)
  rwa [Bool.and_eq_true] at both

theorem isPrintable_of_mem_ofNat {n : Nat} {c : Char} (h : c ∈ ofNat n) :
    isPrintable c = true := by
  obtain ⟨d, rfl⟩ := exists_digitChar_of_mem_toDigits (by decide) h
  exact (isPrintable_digitChar d).1

/-- A numeral is printable. -/
theorem isPrintable_of_mem_ofInt {n : Int} {c : Char} (h : c ∈ ofInt n) :
    isPrintable c = true := by
  unfold ofInt at h
  split at h
  · rcases List.mem_cons.mp h with rfl | digit
    · decide
    · exact isPrintable_of_mem_ofNat digit
  · exact isPrintable_of_mem_ofNat h

theorem exists_digitChar_of_mem_ofNatHex {width n : Nat} {c : Char} (h : c ∈ ofNatHex width n) :
    ∃ d, c = Nat.digitChar d := by
  rcases List.mem_append.mp h with zero | digit
  · exact ⟨0, List.eq_of_mem_replicate zero⟩
  · exact exists_digitChar_of_mem_toDigits (by decide) digit

/-! ## Quoted texts -/

theorem exists_codePointEscape (c : Char) : ∃ letter ∈ ['x', 'u', 'U'], ∃ width,
    codePointEscape c = '\\' :: letter :: ofNatHex width c.toNat := by
  unfold codePointEscape
  split
  · exact ⟨'x', by simp, 2, rfl⟩
  split
  · exact ⟨'u', by simp, 4, rfl⟩
  · exact ⟨'U', by simp, 8, rfl⟩

theorem isPrintable_of_mem_codePointEscape {c x : Char} (h : x ∈ codePointEscape c) :
    isPrintable x = true := by
  obtain ⟨letter, mem, width, eq⟩ := exists_codePointEscape c
  have letters : ['x', 'u', 'U'].all isPrintable = true := by decide
  rw [eq] at h
  rcases List.mem_cons.mp h with rfl | h
  · decide
  rcases List.mem_cons.mp h with rfl | digit
  · exact List.all_eq_true.mp letters _ mem
  · obtain ⟨d, rfl⟩ := exists_digitChar_of_mem_ofNatHex digit
    exact (isPrintable_digitChar d).1

theorem isPrintable_quoteMark (t : Text) : isPrintable (quoteMark t) = true := by
  unfold quoteMark
  split <;> decide

theorem isPrintable_of_mem_shownChar {mark c x : Char} (printable : isPrintable mark = true)
    (h : x ∈ shownChar mark c) : isPrintable x = true := by
  -- a character that is escaped is the quote or a backslash, or has a letter instead
  have pair {y : Char} (shown : isPrintable y = true) (h : x ∈ ['\\', y]) :
      isPrintable x = true := by
    rcases List.mem_cons.mp h with rfl | last
    · decide
    · rwa [List.mem_singleton.mp last]
  unfold shownChar at h
  split at h
  · next escaped =>
    refine pair ?_ h
    rcases escaped with rfl | rfl
    · exact printable
    · decide
  split at h
  · exact pair (by decide) h
  split at h
  · exact pair (by decide) h
  split at h
  · exact pair (by decide) h
  split at h
  · next plain => rwa [List.mem_singleton.mp h]
  · exact isPrintable_of_mem_codePointEscape h

/-- A text between quotes is printable. -/
theorem isPrintable_of_mem_quoted {t : Text} {c : Char} (h : c ∈ quoted t) :
    isPrintable c = true := by
  have mark := isPrintable_quoteMark t
  rcases List.mem_append.mp h with front | last
  · rcases List.mem_cons.mp front with rfl | shown
    · exact mark
    · obtain ⟨x, _, shown⟩ := List.mem_flatMap.mp shown
      exact isPrintable_of_mem_shownChar mark shown
  · rwa [List.mem_singleton.mp last]

end Lexis.Text
