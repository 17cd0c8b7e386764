import Lexis.Scan.Rule
import Mathlib.Data.List.TakeWhile

/-!
# The grammar of tokens

What the lexeme of each kind of token looks like in strict reading, said without regard to how a
text is read. The rules of `Lexis.Scan` are measured against it: a token that is read is the longest
lexeme at the front of the text, and a text that is refused begins with no lexeme at all.

Results:
1. `Spelling.length_le_identifierTail`, `Numeral.length_le_of_digit_or_sign`,
   `Spelling.length_le_operatorTail`: no lexeme is longer than the run, the number or the operator
   that is read.
2. `CharacterLiteral.strict_eq_token_iff`, `StringLiteral.strict_eq_token_iff`: a literal is read
   exactly where one stands.
3. `Longest.unique`: there is one longest lexeme at the front of a text.
4. `Scan.token_iff_longest`, `Scan.no_spelling_of_refused`: a token is read exactly where its lexeme
   is the longest, and a text is refused only if no lexeme stands there.
5. `Spelling.iff_scan`: a text is a lexeme if all of it is read as one token.
-/

namespace Lexis

open Alphabet

/-! ## Lexemes -/

/-- One or more digits. -/
def Digits (t : Text) : Prop := t ≠ [] ∧ ∀ c ∈ t, c.isDigit = true

/-- One character of a literal: a plain one, or an escape. -/
inductive Item (excluded : Text) : Text → Prop
  | plain {c : Char} : c ∉ excluded → Item excluded [c]
  | escape {e : Char} : e ∈ ['b', 'n', 'r', 't', '\'', '"', '\\'] → Item excluded ['\\', e]

/-- `Spelling kind lexeme`: the text is a lexeme of the kind.

* `identifier`: `[@A-Za-z][A-Za-z0-9_-]*`
* `zero`, `positive`, `negative`: `0 | [1-9][0-9]* | -[0-9]+`
* `decimal`: an integer, then `.[0-9]+`
* `character`: one plain character or escape between single quotes
* `string`: any number of plain characters and escapes between double quotes
* `pair`, `single`: `!= | == | && | ||`, or a character that begins no other lexeme but a minus
  sign -/
inductive Spelling : Kind → Text → Prop
  | identifier {c : Char} {t : Text} : c = '@' ∨ c.isAlpha = true →
      (∀ d ∈ t, d.isAlphanum = true ∨ d = '_' ∨ d = '-') → Spelling .identifier (c :: t)
  | zero : Spelling .integer ['0']
  | positive {c : Char} {t : Text} : c.isDigit = true → c ≠ '0' → (∀ d ∈ t, d.isDigit = true) →
      Spelling .integer (c :: t)
  | negative {t : Text} : Digits t → Spelling .integer ('-' :: t)
  | decimal {whole fraction : Text} : Spelling .integer whole → Digits fraction →
      Spelling .decimal (whole ++ '.' :: fraction)
  | character {item : Text} : Item ['\'', '\\', '\n', '\r', '\t', '\x08', '\x0c'] item →
      Spelling .character ('\'' :: (item ++ ['\'']))
  | string {items : List Text} : (∀ item ∈ items, Item ['"', '\\', '\n', '\r'] item) →
      Spelling .string ('"' :: (items.flatten ++ ['"']))
  | pair {t : Text} : t ∈ ["!=".toList, "==".toList, "&&".toList, "||".toList] →
      Spelling .operator t
  | single {c : Char} : c.isAlpha = false → c ≠ '@' → c.isDigit = false → c ≠ '\'' → c ≠ '"' →
      Spelling .operator [c]

/-- `Longest kind lexeme t`: the lexeme stands at the front of the text, is of the kind, and no
lexeme of any kind that stands there is longer. -/
def Longest (kind : Kind) (lexeme t : Text) : Prop :=
  lexeme <+: t ∧ Spelling kind lexeme ∧
    ∀ other l, l <+: t → Spelling other l → l.length ≤ lexeme.length

/-! ## The alphabet in terms of character classes -/

namespace Alphabet

/-- What all characters of a text have in common, by a look at each. -/
theorem forall_mem_of_all {p : Char → Prop} [DecidablePred p] {t : Text}
    (h : t.all (fun c => decide (p c)) = true) : ∀ c ∈ t, p c := by
  simpa using h

theorem mem_digits_iff {c : Char} : c ∈ digits ↔ c.isDigit = true := by
  constructor
  · have all : ∀ d ∈ digits, d.isDigit = true := forall_mem_of_all (by decide)
    exact all c
  · intro h
    have all : ∀ n < 58, 48 ≤ n → Char.ofNat n ∈ digits := by decide
    have bounds : 48 ≤ c.toNat ∧ c.toNat ≤ 57 := by
      simpa [Char.isDigit, UInt32.le_iff_toNat_le] using h
    have mem := all c.toNat (by omega) bounds.1
    rwa [Char.ofNat_toNat] at mem

theorem mem_letters_iff {c : Char} : c ∈ letters ↔ c.isAlpha = true := by
  constructor
  · have all : ∀ d ∈ letters, d.isAlpha = true := forall_mem_of_all (by decide)
    exact all c
  · intro h
    have all : ∀ n < 123, (65 ≤ n ∧ n ≤ 90) ∨ 97 ≤ n → Char.ofNat n ∈ letters := by
      decide +kernel
    have bounds : (65 ≤ c.toNat ∧ c.toNat ≤ 90) ∨ (97 ≤ c.toNat ∧ c.toNat ≤ 122) := by
      change (decide (c.val ≥ 65 ∧ c.val ≤ 90) || (c.val ≥ 97 && c.val ≤ 122)) = true at h
      simpa [UInt32.le_iff_toNat_le] using h
    have mem := all c.toNat (by omega) (by omega)
    rwa [Char.ofNat_toNat] at mem

theorem mem_identStart_iff {c : Char} : c ∈ identStart ↔ c = '@' ∨ c.isAlpha = true := by
  rw [identStart, List.mem_cons, mem_letters_iff]

theorem mem_identChars_iff {c : Char} :
    c ∈ identChars ↔ c.isAlphanum = true ∨ c = '_' ∨ c = '-' := by
  have sub : identChars ⊆ (letters ++ digits) ++ ['_', '-'] := by decide +kernel
  have sup : (letters ++ digits) ++ ['_', '-'] ⊆ identChars := by decide +kernel
  have mem : c ∈ (letters ++ digits) ++ ['_', '-'] ↔ c.isAlphanum = true ∨ c = '_' ∨ c = '-' := by
    simp [mem_letters_iff, mem_digits_iff, Char.isAlphanum, or_assoc]
  exact ⟨fun h => mem.mp (sub h), fun h => sup (mem.mpr h)⟩

theorem mem_escapeLetters_iff {e : Char} :
    e ∈ escapeLetters ↔ e ∈ ['b', 'n', 'r', 't', '\'', '"', '\\'] := by
  have perm : escapeLetters.Perm ['b', 'n', 'r', 't', '\'', '"', '\\'] := by decide
  exact perm.mem_iff

theorem lookup_sign : operatorPairs.lookup '-' = none := by decide

@[simp] theorem point_not_mem_digits : '.' ∉ digits := by decide

@[simp] theorem quote_not_mem_digits : '\'' ∉ digits := by decide

@[simp] theorem double_not_mem_digits : '"' ∉ digits := by decide

@[simp] theorem quote_not_mem_identStart : '\'' ∉ identStart := by decide

@[simp] theorem double_not_mem_identStart : '"' ∉ identStart := by decide

/-- What begins a number begins nothing else. -/
theorem not_start_of_number {c : Char} (first : c ∈ digits ∨ c = '-') :
    c ∉ identStart ∧ c ≠ '\'' ∧ c ≠ '"' := by
  have all : ∀ d ∈ '-' :: digits, d ∉ identStart ∧ d ≠ '\'' ∧ d ≠ '"' :=
    forall_mem_of_all (by decide +kernel)
  exact all c (List.mem_cons.mpr first.symm)

/-- What begins neither an identifier nor a number, nor stands in quotes, has no class. -/
theorem not_class_of_not_mem {c : Char} (ident : c ∉ identStart) (digit : c ∉ digits) :
    c.isAlpha = false ∧ c ≠ '@' ∧ c.isDigit = false := by
  rw [mem_identStart_iff, not_or] at ident
  rw [mem_digits_iff] at digit
  exact ⟨by simpa using ident.2, ident.1, by simpa using digit⟩

end Alphabet

/-! ## Lexemes by their first character -/

namespace Spelling

variable {kind : Kind} {c : Char} {l t : Text}

theorem ne_nil (h : Spelling kind l) : l ≠ [] := by
  rintro rfl
  -- the lexeme of a pair or a decimal is no constructor applied, so it is kept as an equation
  generalize text : ([] : Text) = lexeme at h
  cases h with
  | pair mem =>
    subst text
    exact absurd mem (by decide)
  | decimal => simp at text
  | _ => cases text

theorem integer_cons_iff : Spelling .integer (c :: l) ↔
    (c = '0' ∧ l = []) ∨ (c.isDigit = true ∧ c ≠ '0' ∧ ∀ d ∈ l, d.isDigit = true) ∨
      (c = '-' ∧ Digits l) := by
  constructor
  · intro h
    cases h with
    | zero => exact .inl ⟨rfl, rfl⟩
    | positive digit ne all => exact .inr (.inl ⟨digit, ne, all⟩)
    | negative all => exact .inr (.inr ⟨rfl, all⟩)
  · rintro (⟨rfl, rfl⟩ | ⟨digit, ne, all⟩ | ⟨rfl, all⟩)
    · exact .zero
    · exact .positive digit ne all
    · exact .negative all

theorem digits_of_integer_cons (h : Spelling .integer (c :: l)) : ∀ d ∈ l, d.isDigit = true := by
  rcases integer_cons_iff.mp h with ⟨_, rfl⟩ | ⟨_, _, all⟩ | ⟨_, _, all⟩
  · simp
  · exact all
  · exact all

/-- The kinds that a lexeme may have, by its first character. -/
inductive Shape (c : Char) (l : Text) : Kind → Prop
  | identifier : c ∈ identStart → (∀ d ∈ l, d ∈ identChars) → Shape c l .identifier
  | integer : c ∈ digits ∨ c = '-' → Spelling .integer (c :: l) → Shape c l .integer
  | decimal {w f : Text} : c ∈ digits ∨ c = '-' → Spelling .integer (c :: w) → Digits f →
      l = w ++ '.' :: f → Shape c l .decimal
  | character : c = '\'' → Shape c l .character
  | string : c = '"' → Shape c l .string
  | operator : c ∉ identStart → c ∉ digits → c ≠ '\'' → c ≠ '"' →
      l = [] ∨ (∃ d, operatorPairs.lookup c = some d ∧ l = [d]) → Shape c l .operator

theorem shape (h : Spelling kind (c :: l)) : Shape c l kind := by
  have first {w : Text} (whole : Spelling .integer (c :: w)) : c ∈ digits ∨ c = '-' := by
    rcases integer_cons_iff.mp whole with ⟨rfl, _⟩ | ⟨digit, _⟩ | ⟨rfl, _⟩
    · exact .inl (by decide)
    · exact .inl (mem_digits_iff.mpr digit)
    · exact .inr rfl
  cases kind with
  | identifier =>
    cases h with
    | identifier start all =>
      exact .identifier (mem_identStart_iff.mpr start) fun d hd => mem_identChars_iff.mpr (all d hd)
  | integer => exact .integer (first h) h
  | decimal =>
    generalize text : c :: l = lexeme at h
    cases h with
    | @decimal whole f integer fraction =>
      cases whole with
      | nil => exact absurd rfl integer.ne_nil
      | cons x w =>
        cases text
        exact .decimal (first integer) integer fraction rfl
  | character => cases h; exact .character rfl
  | string => cases h; exact .string rfl
  | operator =>
    cases h with
    | single alpha at' digit quote double =>
      refine .operator ?_ ?_ quote double (.inl rfl)
      · simp [mem_identStart_iff, alpha, at']
      · simp [mem_digits_iff, digit]
    | pair mem =>
      simp only [List.mem_cons, List.not_mem_nil, or_false] at mem
      rcases mem with eq | eq | eq | eq
      all_goals
        cases eq
        exact .operator (by decide) (by decide) (by decide) (by decide) (.inr ⟨_, rfl, rfl⟩)

/-! ## No lexeme is longer than what is read -/

theorem length_le_takeWhile {p : Char → Bool} (pre : l <+: t) (all : ∀ d ∈ l, p d = true) :
    l.length ≤ (t.takeWhile p).length := by
  obtain ⟨r, rfl⟩ := pre
  rw [List.takeWhile_append_of_pos all, List.length_append]
  exact Nat.le_add_right _ _

/-- Only an identifier begins as one does, and it is no longer than the run that is read. -/
theorem length_le_identifierTail (h : Spelling kind (c :: l)) (start : c ∈ identStart)
    (pre : l <+: t) : l.length ≤ Scan.identifierTail t := by
  cases h.shape with
  | identifier _ all => exact length_le_takeWhile pre fun d hd => decide_eq_true (all d hd)
  | integer number | decimal number => exact absurd start (not_start_of_number number).1
  | character quote => exact absurd (quote ▸ start) quote_not_mem_identStart
  | string quote => exact absurd (quote ▸ start) double_not_mem_identStart
  | operator ident => exact absurd start ident

theorem startsNumber_of_integer {w : Text} (whole : Spelling .integer (c :: w)) (pre : w <+: t) :
    Scan.startsNumber .strict c t = true := by
  have digit : c.isDigit = true → Scan.startsNumber .strict c t = true := by
    intro digit
    simp [Scan.startsNumber, mem_digits_iff.mpr digit]
  rcases integer_cons_iff.mp whole with ⟨rfl, _⟩ | ⟨isDigit, _⟩ | ⟨rfl, ne, all⟩
  · exact digit (by decide)
  · exact digit isDigit
  · obtain ⟨d, w', rfl⟩ := List.exists_cons_of_ne_nil ne
    obtain ⟨r, rfl⟩ := pre
    simp [Scan.startsNumber, mem_digits_iff, all d List.mem_cons_self]

/-- Only an operator begins with what begins nothing else, and it is no longer than the one that is
read. -/
theorem length_le_operatorTail (h : Spelling kind (c :: l)) (ident : c ∉ identStart)
    (number : Scan.startsNumber .strict c t = false) (quote : c ≠ '\'') (double : c ≠ '"')
    (pre : l <+: t) : l.length ≤ Scan.operatorTail c t := by
  have noInteger {w : Text} (whole : Spelling .integer (c :: w)) (pre : w <+: t) : False :=
    Bool.false_ne_true (number.symm.trans (startsNumber_of_integer whole pre))
  cases h.shape with
  | identifier start => exact absurd start ident
  | integer _ whole => exact (noInteger whole pre).elim
  | decimal _ whole _ eq =>
    subst eq
    exact (noInteger whole ((List.prefix_append _ _).trans pre)).elim
  | character eq => exact absurd eq quote
  | string eq => exact absurd eq double
  | operator _ _ _ _ second =>
    rcases second with rfl | ⟨d, paired, rfl⟩
    · exact Nat.zero_le _
    · obtain ⟨r, rfl⟩ := pre
      simp [Scan.operatorTail, paired]

end Spelling

/-! ## Numbers -/

namespace Numeral

variable {kind : Kind} {c : Char} {l t : Text}

theorem take_digitRun (t : Text) : t.take (digitRun t) = t.takeWhile (· ∈ digits) :=
  (List.prefix_iff_eq_take.mp (List.takeWhile_prefix _)).symm

theorem isDigit_of_mem_takeWhile {d : Char} (h : d ∈ t.takeWhile (· ∈ digits)) :
    d.isDigit = true :=
  mem_digits_iff.mp (by simpa using List.mem_takeWhile_imp h)

theorem eq_of_fraction? {mode : Mode} {n : Nat} (h : fraction? mode t = some n) :
    ∃ v, t = '.' :: v ∧ n = 1 + digitRun v := by
  unfold fraction? at h
  split at h
  · next d v =>
    split at h
    · cases h
    · exact ⟨d :: v, rfl, (Option.some.inj h).symm⟩
  · cases h

theorem fraction?_strict_eq_some_iff {v : Text} :
    fraction? .strict ('.' :: v) = some (1 + digitRun v) ↔
    v.takeWhile (· ∈ digits) ≠ [] := by
  cases v with
  | nil => simp [fraction?]
  | cons d v =>
    by_cases digit : d ∈ digits <;> simp [fraction?, digit]

theorem take_of_fraction? {mode : Mode} {n : Nat}
    (h : fraction? mode (t.drop (digitRun t)) = some n) :
    ∃ v, t.drop (digitRun t) = '.' :: v ∧ n = 1 + digitRun v ∧ t.take (digitRun t + n) =
      t.takeWhile (· ∈ digits) ++ '.' :: v.takeWhile (· ∈ digits) := by
  obtain ⟨v, point, rfl⟩ := eq_of_fraction? h
  refine ⟨v, point, rfl, ?_⟩
  rw [List.take_add, take_digitRun, point, Nat.add_comm 1, List.take_succ_cons, take_digitRun]

/-- Unless a zero stands alone, the digits in front belong to an integer. -/
theorem spelling_integer (number : Scan.startsNumber .strict c t = true)
    (alone : ¬ (c = '0' ∧ t.head? ≠ some '.')) :
    Spelling .integer (c :: t.takeWhile (· ∈ digits)) := by
  have all : ∀ d ∈ t.takeWhile (· ∈ digits), d.isDigit = true :=
    fun d hd => isDigit_of_mem_takeWhile hd
  by_cases zero : c = '0'
  · obtain ⟨v, rfl⟩ : ∃ v, t = '.' :: v := by
      simp only [zero, true_and, ne_eq, not_not] at alone
      exact List.head?_eq_some_iff.mp alone
    subst zero
    simpa using Spelling.zero
  · by_cases digit : c ∈ digits
    · exact .positive (mem_digits_iff.mp digit) zero all
    · cases t with
      | nil => simp [Scan.startsNumber, digit] at number
      | cons d v =>
        obtain ⟨rfl, first⟩ : c = '-' ∧ d ∈ digits := by
          simpa [Scan.startsNumber, digit] using number
        refine .negative ⟨?_, all⟩
        simp [first]

/-- In strict reading, what is read as a number is one. -/
theorem spelling_tail (number : Scan.startsNumber .strict c t = true)
    (alone : ¬ (c = '0' ∧ t.head? ≠ some '.')) :
    Spelling (tail .strict t).1 (c :: t.take (tail .strict t).2) := by
  have whole := spelling_integer number alone
  unfold tail
  cases fraction : fraction? .strict (t.drop (digitRun t)) with
  | none =>
    simpa [take_digitRun] using whole
  | some n =>
    obtain ⟨v, point, rfl, read⟩ := take_of_fraction? fraction
    rw [point, fraction?_strict_eq_some_iff] at fraction
    simp only [read]
    exact .decimal whole ⟨fraction, fun d hd => isDigit_of_mem_takeWhile hd⟩

theorem length_le_digitRun (whole : Spelling .integer (c :: l)) (pre : l <+: t) :
    l.length ≤ digitRun t :=
  Spelling.length_le_takeWhile pre fun d hd =>
    decide_eq_true (mem_digits_iff.mpr (Spelling.digits_of_integer_cons whole d hd))

theorem length_le_tail {w f : Text} (whole : Spelling .integer (c :: w)) (fraction : Digits f)
    (pre : w ++ '.' :: f <+: t) : (w ++ '.' :: f).length ≤ (tail .strict t).2 := by
  have all : ∀ d ∈ w, decide (d ∈ digits) = true := fun d hd =>
    decide_eq_true (mem_digits_iff.mpr (Spelling.digits_of_integer_cons whole d hd))
  obtain ⟨r, rfl⟩ := pre
  rw [List.append_assoc, List.cons_append]
  -- the digits in front end at the point, so the point that is read is that of the lexeme
  have run : digitRun (w ++ '.' :: (f ++ r)) = w.length := by
    rw [digitRun, List.takeWhile_append_of_pos all]
    simp
  obtain ⟨ne, allFraction⟩ := fraction
  have digitsBehind : ∀ d ∈ f, decide (d ∈ digits) = true := fun d hd =>
    decide_eq_true (mem_digits_iff.mpr (allFraction d hd))
  have behind : f.length ≤ digitRun (f ++ r) :=
    Spelling.length_le_takeWhile (List.prefix_append f r) digitsBehind
  have point : fraction? .strict ('.' :: (f ++ r)) = some (1 + digitRun (f ++ r)) := by
    rw [fraction?_strict_eq_some_iff, List.takeWhile_append_of_pos digitsBehind]
    simp [ne]
  simp only [tail, run, List.drop_left, point, List.length_append, List.length_cons]
  omega

theorem digitRun_le_tail (t : Text) : digitRun t ≤ (tail .strict t).2 := by
  unfold tail
  split
  · exact Nat.le_add_right _ _
  · exact Nat.le_refl _

theorem digit_or_sign (number : Scan.startsNumber .strict c t = true) : c ∈ digits ∨ c = '-' := by
  simp only [Scan.startsNumber, Bool.or_eq_true, Bool.and_eq_true, decide_eq_true_eq] at number
  exact number.imp_right And.left

/-- No lexeme that begins as a number does is longer than the rest of a number there. -/
theorem length_le_of_digit_or_sign (h : Spelling kind (c :: l)) (first : c ∈ digits ∨ c = '-')
    (pre : l <+: t) : l.length ≤ (tail .strict t).2 := by
  obtain ⟨notIdent, notQuote, notDouble⟩ := not_start_of_number first
  cases h.shape with
  | identifier start => exact absurd start notIdent
  | integer _ whole => exact (length_le_digitRun whole pre).trans (digitRun_le_tail t)
  | decimal _ whole fraction eq =>
    subst eq
    exact length_le_tail whole fraction pre
  | character quote => exact absurd quote notQuote
  | string quote => exact absurd quote notDouble
  | operator _ digit _ _ second =>
    obtain rfl := first.resolve_left digit
    rcases second with rfl | ⟨d, paired, _⟩
    · exact Nat.zero_le _
    · rw [lookup_sign] at paired
      cases paired

/-- A zero that stands alone begins no longer lexeme. -/
theorem eq_nil_of_alone (h : Spelling kind ('0' :: l)) (alone : t.head? ≠ some '.')
    (pre : l <+: t) : l = [] := by
  have onlyZero {w : Text} (whole : Spelling .integer ('0' :: w)) : w = [] := by
    rcases Spelling.integer_cons_iff.mp whole with ⟨_, eq⟩ | ⟨_, ne, _⟩ | ⟨eq, _⟩
    · exact eq
    · exact absurd rfl ne
    · cases eq
  cases h.shape with
  | identifier start => exact absurd start (by decide)
  | integer _ whole => exact onlyZero whole
  | decimal _ whole _ eq =>
    -- the whole part is the zero itself, so the point would stand right behind it
    obtain rfl := onlyZero whole
    subst eq
    obtain ⟨r, rfl⟩ := pre
    exact absurd rfl alone
  | character quote => cases quote
  | string quote => cases quote
  | operator _ digit => exact absurd (by decide) digit

end Numeral

/-! ## The longest lexeme -/

theorem Longest.of_forall {kind : Kind} {c : Char} {t : Text} {n : Nat} (le : n ≤ t.length)
    (spelling : Spelling kind (c :: t.take n))
    (bound : ∀ other l, Spelling other (c :: l) → l <+: t → l.length ≤ n) :
    Longest kind ((c :: t).take (n + 1)) (c :: t) := by
  refine ⟨List.take_prefix _ _, spelling, fun other l pre h => ?_⟩
  obtain ⟨d, l, rfl⟩ := List.exists_cons_of_ne_nil h.ne_nil
  obtain ⟨rfl, behind⟩ := List.cons_prefix_cons.mp pre
  have := bound other l h behind
  simp only [List.length_take, List.length_cons]
  omega

/-- In strict reading, a number is the longest lexeme at the front of its text. -/
theorem Numeral.exists_longest {c : Char} {t : Text}
    (number : Scan.startsNumber .strict c t = true) :
    ∃ kind n, scan .strict c t = .token kind n none ∧
      Longest kind ((c :: t).take (n + 1)) (c :: t) := by
  by_cases alone : c = '0' ∧ t.head? ≠ some '.'
  · obtain ⟨rfl, point⟩ := alone
    refine ⟨.integer, 0, by simp [scan, point], .of_forall (Nat.zero_le _) .zero ?_⟩
    intro other l h pre
    rw [eq_nil_of_alone h point pre]
    exact Nat.le_refl _
  · refine ⟨_, _, if_neg alone, .of_forall (tail_le _ t) (spelling_tail number alone) ?_⟩
    intro other l h pre
    exact length_le_of_digit_or_sign h (digit_or_sign number) pre

/-! ## The kind of a lexeme -/

namespace Spelling

variable {kind other : Kind} {c : Char} {l : Text}

/-- The kind that a lexeme can only have: its first character tells, with a point for decimals. -/
def kindOf (c : Char) (l : Text) : Kind :=
  if c ∈ identStart then .identifier
  else if c = '\'' then .character
  else if c = '"' then .string
  else if Scan.startsNumber .strict c l then if '.' ∈ l then .decimal else .integer
  else .operator

theorem kindOf_eq (h : Spelling kind (c :: l)) : kindOf c l = kind := by
  cases h.shape with
  | identifier start => simp [kindOf, start]
  | integer first whole =>
    obtain ⟨ident, quote, double⟩ := not_start_of_number first
    have point : '.' ∉ l := fun mem => absurd (digits_of_integer_cons whole '.' mem) (by decide)
    simp [kindOf, ident, quote, double, point, startsNumber_of_integer whole (List.prefix_refl l)]
  | @decimal w f first whole _ eq =>
    subst eq
    obtain ⟨ident, quote, double⟩ := not_start_of_number first
    simp [kindOf, ident, quote, double, startsNumber_of_integer whole (List.prefix_append w _)]
  | character eq =>
    subst eq
    simp [kindOf]
  | string eq =>
    subst eq
    simp [kindOf]
  | operator ident digit quote double second =>
    have noNumber : Scan.startsNumber .strict c l = false := by
      rcases second with rfl | ⟨d, paired, rfl⟩
      · simp [Scan.startsNumber, digit]
      · have sign : c ≠ '-' := by
          rintro rfl
          rw [lookup_sign] at paired
          cases paired
        simp [Scan.startsNumber, digit, sign]
    simp [kindOf, ident, quote, double, noNumber]

theorem kind_unique {t : Text} (h : Spelling kind t) (h' : Spelling other t) : kind = other := by
  obtain ⟨c, l, rfl⟩ := List.exists_cons_of_ne_nil h.ne_nil
  exact h.kindOf_eq.symm.trans h'.kindOf_eq

end Spelling

/-- There is one longest lexeme at the front of a text, of one kind. -/
theorem Longest.unique {kind other : Kind} {l m t : Text} (h : Longest kind l t)
    (h' : Longest other m t) : kind = other ∧ l = m := by
  obtain ⟨pre, spelled, bound⟩ := h
  obtain ⟨pre', spelled', bound'⟩ := h'
  have same : l.length = m.length :=
    Nat.le_antisymm (bound' kind l pre spelled) (bound other m pre' spelled')
  obtain rfl : l = m := by
    rw [List.prefix_iff_eq_take.mp pre, List.prefix_iff_eq_take.mp pre', same]
  exact ⟨spelled.kind_unique spelled', rfl⟩

/-! ## Literals -/

namespace CharacterLiteral

variable {kind : Kind} {n depth : Nat} {flaw : Option Flaw} {t : Text}

theorem close_eq_token_iff : close depth t = .token kind n flaw ↔
    (∃ r, t = '\'' :: r) ∧ kind = .character ∧ n = depth ∧ flaw = none := by
  unfold close
  split
  · next r => simp [eq_comm]
  · next no =>
    have none : ¬ ∃ r, t = '\'' :: r := fun ⟨r, eq⟩ => no r eq
    simp [none]

/-- In strict reading a character literal is read exactly where one stands. -/
theorem strict_eq_token_iff : strict t = .token kind n flaw ↔
    ∃ item, Item ['\'', '\\', '\n', '\r', '\t', '\x08', '\x0c'] item ∧ item ++ ['\''] <+: t ∧
      kind = .character ∧ n = item.length + 1 ∧ flaw = none := by
  constructor
  · intro h
    unfold strict at h
    split at h
    · cases h
    · next c t =>
      split at h
      · cases h
      split at h
      · cases h
      split at h
      · cases h
      split at h
      · next backslash =>
        split at h
        · cases h
        · next e t =>
          split at h
          · next letter =>
            obtain ⟨⟨r, rfl⟩, rfl, rfl, rfl⟩ := close_eq_token_iff.mp h
            exact ⟨['\\', e], .escape (mem_escapeLetters_iff.mp letter), ⟨r, by simp [backslash]⟩,
              rfl, rfl, rfl⟩
          · cases h
      · next quote line control backslash =>
        obtain ⟨⟨r, rfl⟩, rfl, rfl, rfl⟩ := close_eq_token_iff.mp h
        refine ⟨[c], .plain ?_, ⟨r, rfl⟩, rfl, rfl, rfl⟩
        simp_all [lineTerminators, controlChars]
  · rintro ⟨item, standing, ⟨r, rfl⟩, rfl, rfl, rfl⟩
    cases standing with
    | plain plain =>
      simp_all [strict, close, lineTerminators, controlChars]
    | escape letter =>
      simp [strict, close, mem_escapeLetters_iff.mpr letter,
        show '\\' ∉ lineTerminators from by decide, show '\\' ∉ controlChars from by decide]

end CharacterLiteral

namespace StringLiteral

variable {kind : Kind} {n depth : Nat} {flaw : Option Flaw} {t : Text}

theorem strict_plain {c : Char} (plain : c ∉ ['"', '\\', '\n', '\r']) (depth : Nat) (t : Text) :
    strict depth (c :: t) = strict (depth + 1) t := by
  rw [strict.eq_def]
  simp_all [lineTerminators]

theorem strict_escape {e : Char} (letter : e ∈ escapeLetters) (depth : Nat) (t : Text) :
    strict depth ('\\' :: e :: t) = strict (depth + 2) t := by
  rw [strict.eq_def]
  simp [letter, lineTerminators]

/-- Behind any number of items that stand in front, the literal is read on. -/
theorem strict_items {items : List Text}
    (standing : ∀ item ∈ items, Item ['"', '\\', '\n', '\r'] item) (depth : Nat) (r : Text) :
    strict depth (items.flatten ++ r) = strict (depth + items.flatten.length) r := by
  induction items generalizing depth with
  | nil => rfl
  | cons item items ih =>
    have rest := ih fun other mem => standing other (List.mem_cons_of_mem _ mem)
    rw [List.flatten_cons, List.append_assoc, List.length_append]
    cases standing item List.mem_cons_self with
    | plain plain =>
      rw [List.singleton_append, strict_plain plain, rest, List.length_singleton, Nat.add_assoc]
    | @escape e letter =>
      rw [show ['\\', e] ++ (items.flatten ++ r) = '\\' :: e :: (items.flatten ++ r) from rfl,
        strict_escape (mem_escapeLetters_iff.mpr letter), rest]
      congr 1
      simp only [List.length_cons, List.length_nil]
      omega

theorem exists_items_of_strict (h : strict depth t = .token kind n flaw) :
    ∃ items : List Text, (∀ item ∈ items, Item ['"', '\\', '\n', '\r'] item) ∧
      items.flatten ++ ['"'] <+: t ∧ kind = .string ∧ n = depth + items.flatten.length ∧
      flaw = none := by
  fun_induction strict depth t with
  | case1 | case3 | case4 | case6 => cases h
  | case2 depth t =>
    cases h
    exact ⟨[], by simp, ⟨t, rfl⟩, rfl, rfl, rfl⟩
  | case5 depth e t letter _ _ ih =>
    obtain ⟨items, standing, pre, rfl, rfl, rfl⟩ := ih h
    refine ⟨['\\', e] :: items, ?_, ?_, rfl, ?_, rfl⟩
    · simpa using ⟨.escape (mem_escapeLetters_iff.mp letter), standing⟩
    · simpa using pre
    · simp only [List.flatten_cons, List.length_append, List.length_cons, List.length_nil]
      omega
  | case7 depth c t quote line backslash ih =>
    obtain ⟨items, standing, pre, rfl, rfl, rfl⟩ := ih h
    refine ⟨[c] :: items, ?_, ?_, rfl, ?_, rfl⟩
    · have plain : c ∉ ['"', '\\', '\n', '\r'] := by simp_all [lineTerminators]
      simpa using ⟨.plain plain, standing⟩
    · simpa using pre
    · simp only [List.flatten_cons, List.length_append, List.length_cons, List.length_nil]
      omega

/-- In strict reading a string literal is read exactly where one stands. -/
theorem strict_eq_token_iff : strict depth t = .token kind n flaw ↔
    ∃ items : List Text, (∀ item ∈ items, Item ['"', '\\', '\n', '\r'] item) ∧
      items.flatten ++ ['"'] <+: t ∧ kind = .string ∧ n = depth + items.flatten.length ∧
      flaw = none := by
  refine ⟨exists_items_of_strict, ?_⟩
  rintro ⟨items, standing, ⟨r, rfl⟩, rfl, rfl, rfl⟩
  rw [List.append_assoc, strict_items standing, strict.eq_def]
  rfl

theorem le_of_strict_refused {f : Flaw} (h : strict depth t = .refused f) : depth ≤ f.depth := by
  fun_induction strict depth t with
  | case1 | case3 =>
    cases h
    exact Nat.le_refl _
  | case2 => cases h
  | case4 | case6 =>
    cases h
    exact Nat.le_succ _
  | case5 _ _ _ _ _ _ ih | case7 _ _ _ _ _ _ ih =>
    have := ih h
    omega

end StringLiteral

/-! ## The longest lexeme is read -/

namespace Scan

variable {mode : Mode} {c : Char} {t : Text}

theorem ofText_quote (h : mode = .strict ∨ t ≠ []) :
    ofText mode '\'' t = CharacterLiteral.scan mode t := by
  have number : startsNumber mode '\'' t = false := by
    simp [startsNumber]
  rw [ofText, if_neg quote_not_mem_identStart, number, if_neg Bool.false_ne_true, if_pos ⟨rfl, h⟩]

theorem ofText_double : ofText mode '"' t = StringLiteral.scan mode t := by
  have number : startsNumber mode '"' t = false := by
    simp [startsNumber]
  rw [ofText, if_neg double_not_mem_identStart, number, if_neg Bool.false_ne_true,
    if_neg fun h => absurd h.1 (by decide), if_pos rfl]

/-- In strict reading, only literals are refused. -/
theorem quote_of_refused {flaw : Flaw} (space : c ≠ ' ') (h : ofText .strict c t = .refused flaw) :
    c = '\'' ∨ c = '"' := by
  unfold ofText Numeral.scan at h
  split at h
  · cases h
  split at h
  · split at h <;> cases h
  split at h
  · next quote => exact .inl quote.1
  split at h
  · next double => exact .inr double
  cases h

/-- Only a character literal begins with a single quote. -/
theorem character_of_quote {kind : Kind} {l : Text} (h : Spelling kind ('\'' :: l))
    (pre : l <+: t) :
    kind = .character ∧ CharacterLiteral.strict t = .token .character l.length none := by
  obtain rfl : kind = .character := by
    cases h.shape with
    | character => rfl
    | identifier start => exact absurd start quote_not_mem_identStart
    | integer number | decimal number => exact absurd rfl (not_start_of_number number).2.1
    | string quote => cases quote
    | operator _ _ quote => exact absurd rfl quote
  cases h with
  | character item =>
    exact ⟨rfl, CharacterLiteral.strict_eq_token_iff.mpr ⟨_, item, pre, rfl, by simp, rfl⟩⟩

/-- Only a string literal begins with a double quote. -/
theorem string_of_quote {kind : Kind} {l : Text} (h : Spelling kind ('"' :: l)) (pre : l <+: t) :
    kind = .string ∧ StringLiteral.strict 1 t = .token .string l.length none := by
  obtain rfl : kind = .string := by
    cases h.shape with
    | string => rfl
    | identifier start => exact absurd start double_not_mem_identStart
    | integer number | decimal number => exact absurd rfl (not_start_of_number number).2.2
    | character quote => cases quote
    | operator _ _ _ quote => exact absurd rfl quote
  cases h with
  | string items =>
    exact ⟨rfl, StringLiteral.strict_eq_token_iff.mpr
      ⟨_, items, pre, rfl, by simp [Nat.add_comm], rfl⟩⟩

theorem pair_of_lookup {d : Char} (h : operatorPairs.lookup c = some d) :
    [c, d] ∈ ["!=".toList, "==".toList, "&&".toList, "||".toList] := by
  have all : ∀ p ∈ operatorPairs,
      [p.1, p.2] ∈ ["!=".toList, "==".toList, "&&".toList, "||".toList] := by decide
  obtain ⟨before, behind, eq, _⟩ := List.lookup_eq_some_iff.mp h
  exact all (c, d) (by rw [eq]; simp)

theorem spelling_operator (ident : c ∉ identStart) (digit : c ∉ digits) (quote : c ≠ '\'')
    (double : c ≠ '"') : Spelling .operator (c :: t.take (operatorTail c t)) := by
  obtain ⟨alpha, at', number⟩ := not_class_of_not_mem ident digit
  have single : Spelling .operator [c] := .single alpha at' number quote double
  unfold operatorTail
  split
  · next d paired =>
    split
    · next head =>
      obtain ⟨r, rfl⟩ := List.head?_eq_some_iff.mp head
      exact .pair (pair_of_lookup paired)
    · exact single
  · exact single

theorem not_mem_digits (number : startsNumber mode c t = false) : c ∉ digits := by
  intro digit
  simp [startsNumber, digit] at number

theorem identChar_of_mem_tail {d : Char} (h : d ∈ t.take (identifierTail t)) :
    d.isAlphanum = true ∨ d = '_' ∨ d = '-' := by
  have run : t.take (identifierTail t) = t.takeWhile (· ∈ identChars) :=
    (List.prefix_iff_eq_take.mp (List.takeWhile_prefix _)).symm
  rw [run] at h
  exact mem_identChars_iff.mp (by simpa using List.mem_takeWhile_imp h)

/-- In strict reading, a token is the longest lexeme at the front of its text, and has no flaw. -/
theorem longest_of_token {kind : Kind} {n : Nat} {flaw : Option Flaw}
    (h : ofText .strict c t = .token kind n flaw) :
    Longest kind ((c :: t).take (n + 1)) (c :: t) ∧ flaw = none := by
  have le := further_le_of_token h
  unfold ofText at h
  split at h
  · next start =>
    cases h
    refine ⟨.of_forall le ?_ fun other l spelled pre =>
      spelled.length_le_identifierTail start pre, rfl⟩
    exact .identifier (mem_identStart_iff.mp start) fun _ => identChar_of_mem_tail
  next ident =>
  split at h
  · next number =>
    obtain ⟨kind', n', scanned, longest⟩ := Numeral.exists_longest number
    rw [scanned] at h
    cases h
    exact ⟨longest, rfl⟩
  next number =>
  split at h
  · next quote =>
    obtain ⟨rfl, _⟩ := quote
    obtain ⟨item, standing, pre, rfl, rfl, rfl⟩ := CharacterLiteral.strict_eq_token_iff.mp h
    refine ⟨.of_forall le ?_ fun other l spelled behind => ?_, rfl⟩
    · have read := List.prefix_iff_eq_take.mp pre
      rw [List.length_append, List.length_singleton] at read
      exact read ▸ .character standing
    · have same := (character_of_quote spelled behind).2.symm.trans h
      exact Nat.le_of_eq (token.inj same).2.1
  next quote =>
  split at h
  · next double =>
    subst double
    obtain ⟨items, standing, pre, rfl, rfl, rfl⟩ := StringLiteral.strict_eq_token_iff.mp h
    refine ⟨.of_forall le ?_ fun other l spelled behind => ?_, rfl⟩
    · have read := List.prefix_iff_eq_take.mp pre
      rw [List.length_append, List.length_singleton, Nat.add_comm] at read
      exact read ▸ .string standing
    · have same := (string_of_quote spelled behind).2.symm.trans h
      exact Nat.le_of_eq (token.inj same).2.1
  next double =>
  split at h
  · cases h
  next space =>
  cases h
  have noNumber : startsNumber .strict c t = false := by simpa using number
  have noQuote : c ≠ '\'' := by simpa using quote
  refine ⟨.of_forall le (spelling_operator ident (not_mem_digits noNumber) noQuote double)
    fun other l spelled pre => ?_, rfl⟩
  exact spelled.length_le_operatorTail ident noNumber noQuote double pre

/-- In strict reading, a text that is refused begins with no lexeme. -/
theorem no_spelling_of_refused {flaw : Flaw} (space : c ≠ ' ')
    (h : ofText .strict c t = .refused flaw) (kind : Kind) (l : Text) (pre : l <+: c :: t) :
    ¬ Spelling kind l := by
  intro spelled
  obtain ⟨d, l, rfl⟩ := List.exists_cons_of_ne_nil spelled.ne_nil
  obtain ⟨rfl, behind⟩ := List.cons_prefix_cons.mp pre
  unfold ofText at h
  split at h
  · cases h
  split at h
  · next number =>
    obtain ⟨_, _, scanned, _⟩ := Numeral.exists_longest number
    rw [scanned] at h
    cases h
  split at h
  · next quote =>
    obtain ⟨rfl, _⟩ := quote
    have same := (character_of_quote spelled behind).2.symm.trans h
    cases same
  split at h
  · next double =>
    subst double
    have same := (string_of_quote spelled behind).2.symm.trans h
    cases same
  cases h

/-- In strict reading, a token is read exactly where its lexeme is the longest. -/
theorem token_iff_longest {kind : Kind} {n : Nat} (space : c ≠ ' ') (le : n ≤ t.length) :
    ofText .strict c t = .token kind n none ↔ Longest kind ((c :: t).take (n + 1)) (c :: t) := by
  refine ⟨fun h => (longest_of_token h).1, fun longest => ?_⟩
  cases scan : ofText .strict c t with
  | refused flaw =>
    exact absurd longest.2.1 (no_spelling_of_refused space scan kind _ longest.1)
  | token other m flaw =>
    obtain ⟨longest', rfl⟩ := longest_of_token scan
    obtain ⟨rfl, same⟩ := longest.unique longest'
    have le' := further_le_of_token scan
    have length := congrArg List.length same
    simp only [List.length_take, List.length_cons] at length
    obtain rfl : m = n := by omega
    rfl

end Scan

/-! ## Lexemes can be told -/

namespace Spelling

variable {kind : Kind} {c : Char} {t : Text}

/-- A text is a lexeme if all of it is read as one token. -/
theorem iff_scan (space : c ≠ ' ') :
    Spelling kind (c :: t) ↔ Scan.ofText .strict c t = .token kind t.length none := by
  rw [Scan.token_iff_longest space (Nat.le_refl _),
    List.take_of_length_le (Nat.le_of_eq List.length_cons)]
  constructor
  · intro spelled
    exact ⟨List.prefix_rfl, spelled, fun other l pre _ => pre.length_le⟩
  · intro longest
    exact longest.2.1

theorem space_cons_iff : Spelling kind (' ' :: t) ↔ kind = .operator ∧ t = [] := by
  constructor
  · intro spelled
    cases spelled.shape with
    | identifier start => exact absurd start (by decide)
    | integer number | decimal number => exact absurd number (by decide)
    | character quote | string quote => cases quote
    | operator _ _ _ _ second =>
      rcases second with rfl | ⟨d, paired, _⟩
      · exact ⟨rfl, rfl⟩
      · cases paired
  · rintro ⟨rfl, rfl⟩
    exact .single rfl (by decide) rfl (by decide) (by decide)

instance decidable (kind : Kind) : (t : Text) → Decidable (Spelling kind t)
  | [] => isFalse fun spelled => spelled.ne_nil rfl
  | c :: _ =>
    if space : c = ' ' then space ▸ decidable_of_iff _ space_cons_iff.symm
    else decidable_of_iff _ (iff_scan space).symm

end Spelling

end Lexis
