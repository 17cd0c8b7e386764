import Lexis.Pattern.Basic
import Lexis.Proofs.RegexLanguage
import Lexis.Proofs.Spacing

/-!
# Patterns of lexemes

Two of the validation patterns are about texts that the lexer gives out as one token. They were
written apart from the lexer, so each is measured against the lexemes of its kind, and these against
what strict lexing answers to the text alone. The pattern for strings accepts exactly the strings.
The one for decimals is narrower than the lexer: a minus sign lets a number begin with a zero that
the pattern does not accept.

Results:
1. `lex_eq_alone_of_spelling`, `spelling_of_lex_eq_alone`: strict lexing makes one token of a text
   exactly if the text is a lexeme, operators apart.
2. `Pattern.mem_language_stringRegex`, `Pattern.mem_language_decimalRegex_iff_spelling`: the texts
   of the two patterns, as lexemes.
3. `string_pattern_iff_lex`, `decimal_pattern_iff_lex`: the patterns beside strict lexing.
-/

namespace Lexis

open Alphabet

/-! ## Texts that are one token -/

/-- A lexeme that is no operator begins with a character that is never skipped. -/
theorem Spelling.first_mem_tokenStarts {kind : Kind} {c : Char} {l : Text}
    (spelled : Spelling kind (c :: l)) (token : kind ≠ .operator) : c ∈ tokenStarts := by
  have number (first : c ∈ digits ∨ c = '-') : c ∈ tokenStarts := by
    rcases first with digit | rfl
    · exact digits_subset_tokenStarts digit
    · decide
  cases spelled.shape with
  | identifier start => exact identStart_subset_tokenStarts start
  | integer first => exact number first
  | decimal first => exact number first
  | character quote => exact quote ▸ (by decide)
  | string quote => exact quote ▸ (by decide)
  | operator => exact absurd rfl token

variable {o : Options} {filename t : Text} {kind : Kind}

/-- Strict lexing makes one token of a lexeme that is no operator. -/
theorem lex_eq_alone_of_spelling (token : kind ≠ .operator) (spelled : Spelling kind t) :
    ((Lexer.new (o.inMode .strict) filename t).lex).1 = .ok [⟨kind, t, 0⟩] := by
  have readable : Token.Readable (o.inMode .strict).whitespace ⟨kind, t, 0⟩ := by
    refine ⟨spelled, ?_⟩
    intro c head white
    obtain ⟨l, rfl⟩ := List.head?_eq_some_iff.mp head
    exact o.starts_free c white (spelled.first_mem_tokenStarts token)
  have alone := Options.read_readable rfl readable
  rw [Lexer.lex_new_eq_ok_iff, alone]
  exact ⟨rfl, rfl⟩

theorem spelling_of_lex_eq_alone {start : Int}
    (lexed : ((Lexer.new (o.inMode .strict) filename t).lex).1 = .ok [⟨kind, t, start⟩]) :
    Spelling kind t := by
  obtain ⟨_, tokens⟩ := (Lexer.lex_new_eq_ok_iff _ _ _).mp lexed
  have mem : ⟨kind, t, start⟩ ∈ ((o.inMode .strict).read t).tokens := by
    rw [tokens]
    exact List.mem_singleton_self _
  exact (Options.readable_of_mem rfl mem).spelled

/-! ## Strings -/

namespace Pattern

open Regex

theorem mem_language_stringItem :
    t ∈ (either (one fun c => c ≠ '"' && c ≠ '\\' && c ∉ lineTerminators)
      (both (literal ['\\']) (one (· ∈ escapeLetters)))).language ↔
    Item ['"', '\\', '\n', '\r'] t := by
  simp only [mem_language_either, mem_language_both, mem_language_one, mem_language_literal]
  constructor
  · rintro (⟨c, plain, rfl⟩ | ⟨_, rfl, _, ⟨e, letter, rfl⟩, rfl⟩)
    · refine .plain ?_
      simp_all [lineTerminators]
    · refine .escape (mem_escapeLetters_iff.mp ?_)
      simpa using letter
  · intro item
    cases item with
    | @plain c plain =>
      refine .inl ⟨c, ?_, rfl⟩
      simp_all [lineTerminators]
    | @escape e letter =>
      refine .inr ⟨_, rfl, _, ⟨e, ?_, rfl⟩, rfl⟩
      simpa using mem_escapeLetters_iff.mpr letter

theorem mem_language_stringRegex : t ∈ stringRegex.language ↔ Spelling .string t := by
  simp only [stringRegex, mem_language_inOrder_cons, mem_language_inOrder_nil,
    mem_language_literal, mem_language_many, mem_language_stringItem, exists_eq_left,
    exists_eq_left', exists_exists_and_eq_and, List.append_nil]
  constructor
  · rintro ⟨items, standing, rfl⟩
    exact .string standing
  · intro spelled
    cases spelled with
    | string standing => exact ⟨_, standing, rfl⟩

end Pattern

/-! ## Decimals -/

/-- `Unsigned t`: the text is an integer without a sign.

* `zero`, `positive`: `0 | [1-9][0-9]*` -/
inductive Unsigned : Text → Prop
  | zero : Unsigned ['0']
  | positive {c : Char} {t : Text} : c.isDigit = true → c ≠ '0' → (∀ d ∈ t, d.isDigit = true) →
      Unsigned (c :: t)

theorem unsigned_iff :
    Unsigned t ↔ Digits t ∧ ¬ ∃ d r, d.isDigit = true ∧ t = '0' :: d :: r := by
  constructor
  · intro unsigned
    cases unsigned with
    | zero => exact ⟨⟨by simp, List.forall_mem_singleton.mpr rfl⟩, by simp⟩
    | positive first ne others =>
      exact ⟨⟨by simp, List.forall_mem_cons.mpr ⟨first, others⟩⟩, by simp [ne]⟩
  · rintro ⟨⟨ne, digits⟩, narrow⟩
    obtain ⟨c, r, rfl⟩ := List.exists_cons_of_ne_nil ne
    obtain ⟨first, others⟩ := List.forall_mem_cons.mp digits
    by_cases zero : c = '0'
    · subst zero
      cases r with
      | nil => exact .zero
      | cons d r => exact absurd ⟨d, r, others d List.mem_cons_self, rfl⟩ narrow
    · exact .positive first zero others

theorem Spelling.integer_iff :
    Spelling .integer t ↔ Unsigned t ∨ ∃ whole, Digits whole ∧ '-' :: whole = t := by
  constructor
  · intro spelled
    cases spelled with
    | zero => exact .inl .zero
    | positive first ne others => exact .inl (.positive first ne others)
    | negative digits => exact .inr ⟨_, digits, rfl⟩
  · rintro (unsigned | ⟨whole, digits, rfl⟩)
    · cases unsigned with
      | zero => exact .zero
      | positive first ne others => exact .positive first ne others
    · exact .negative digits

namespace Pattern

open Regex

theorem isDigit_iff {c : Char} : isDigit c = true ↔ c.isDigit = true := by
  rw [isDigit, decide_eq_true_eq, mem_digits_iff]

/-- What the pattern for decimals has in front of the point, behind the sign. -/
theorem mem_language_unsigned :
    t ∈ (either (literal ['0'])
      (both (one fun c => isDigit c && c ≠ '0') (many (one isDigit)))).language ↔
    Unsigned t := by
  simp only [mem_language_either, mem_language_both, mem_language_one, mem_language_literal,
    mem_language_many_one, isDigit_iff, Bool.and_eq_true, decide_eq_true_eq]
  constructor
  · rintro (rfl | ⟨_, ⟨c, ⟨first, ne⟩, rfl⟩, r, others, rfl⟩)
    · exact .zero
    · exact .positive first ne others
  · intro unsigned
    cases unsigned with
    | zero => exact .inl rfl
    | positive first ne others => exact .inr ⟨_, ⟨_, ⟨first, ne⟩, rfl⟩, _, others, rfl⟩

/-- The texts of the pattern for decimals: a sign or none, an integer without one, a point and
digits. -/
theorem mem_language_decimalRegex : t ∈ decimalRegex.language ↔
    ∃ sign, (sign = ['-'] ∨ sign = []) ∧ ∃ whole, Unsigned whole ∧
      ∃ fraction, Digits fraction ∧ sign ++ (whole ++ '.' :: fraction) = t := by
  simp only [decimalRegex, mem_language_inOrder_cons, mem_language_inOrder_nil,
    mem_language_optional, mem_language_literal, mem_language_unsigned,
    mem_language_atLeastOnce_one, isDigit_iff, exists_eq_left, exists_exists_and_eq_and,
    exists_exists_and_exists_and_eq_and, List.append_nil]
  rfl

/-- The texts of the pattern for decimals are the lexemes of decimals, except those in which a zero
stands between the minus sign and a digit. -/
theorem mem_language_decimalRegex_iff_spelling : t ∈ decimalRegex.language ↔
    Spelling .decimal t ∧ ¬ ∃ d r, d.isDigit = true ∧ t = '-' :: '0' :: d :: r := by
  rw [mem_language_decimalRegex]
  constructor
  · rintro ⟨_, rfl | rfl, whole, unsigned, fraction, behind, rfl⟩
    · refine ⟨.decimal (.negative (unsigned_iff.mp unsigned).1) behind, ?_⟩
      rintro ⟨d, r, digit, eq⟩
      -- behind a zero stands the point, and no other number begins with a zero
      cases unsigned with
      | zero =>
        cases eq
        exact absurd digit (by decide)
      | positive _ ne => exact ne (List.cons.inj (List.cons.inj eq).2).1
    · refine ⟨.decimal (Spelling.integer_iff.mpr (.inl unsigned)) behind, ?_⟩
      rintro ⟨d, r, _, eq⟩
      cases unsigned with
      | zero => cases eq
      | positive first =>
        obtain ⟨rfl, _⟩ := List.cons.inj eq
        exact absurd first (by decide)
  · rintro ⟨spelled, narrow⟩
    cases spelled with
    | @decimal whole fraction integer behind =>
      rcases Spelling.integer_iff.mp integer with unsigned | ⟨whole, digits, rfl⟩
      · exact ⟨[], .inr rfl, whole, unsigned, fraction, behind, rfl⟩
      · refine ⟨['-'], .inl rfl, whole, unsigned_iff.mpr ⟨digits, ?_⟩, fraction, behind, rfl⟩
        rintro ⟨d, r, digit, rfl⟩
        exact narrow ⟨d, r ++ '.' :: fraction, digit, rfl⟩

end Pattern

/-- The pattern for strings accepts exactly the texts that strict lexing makes one string of. -/
theorem string_pattern_iff_lex (o : Options) (filename t : Text) :
    ∃ p, Pattern.find "STRING".toList = .ok p ∧ (p.accepts t = true ↔
      ((Lexer.new (o.inMode .strict) filename t).lex).1 = .ok [⟨.string, t, 0⟩]) := by
  refine ⟨.string, Pattern.find_name .string, ?_⟩
  rw [Pattern.accepts, Regex.accepts_iff_mem_language, Pattern.regex,
    Pattern.mem_language_stringRegex]
  exact ⟨lex_eq_alone_of_spelling (by decide), spelling_of_lex_eq_alone⟩

/-- The pattern for decimals accepts exactly the texts that strict lexing makes one decimal of,
except those in which a zero stands between the minus sign and a digit. -/
theorem decimal_pattern_iff_lex (o : Options) (filename t : Text) :
    ∃ p, Pattern.find "DECIMAL".toList = .ok p ∧ (p.accepts t = true ↔
      (∃ start, ((Lexer.new (o.inMode .strict) filename t).lex).1 = .ok [⟨.decimal, t, start⟩]) ∧
      ¬ ∃ d r, d.isDigit = true ∧ t = '-' :: '0' :: d :: r) := by
  refine ⟨.decimal, Pattern.find_name .decimal, ?_⟩
  rw [Pattern.accepts, Regex.accepts_iff_mem_language, Pattern.regex,
    Pattern.mem_language_decimalRegex_iff_spelling]
  refine and_congr_left fun _ => ?_
  constructor
  · intro spelled
    exact ⟨0, lex_eq_alone_of_spelling (by decide) spelled⟩
  · rintro ⟨start, lexed⟩
    exact spelling_of_lex_eq_alone lexed

-- the sign hides the zero from the lexer, not from the pattern
example :
    ((Lexer.new (Options.standard.inMode .strict) [] "-01.5".toList).lex).1 =
      .ok [⟨.decimal, "-01.5".toList, 0⟩] ∧
    Pattern.decimal.accepts "-01.5".toList = false := by
  decide +kernel

end Lexis
