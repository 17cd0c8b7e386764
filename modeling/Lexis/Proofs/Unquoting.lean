import Lexis.Listing
import Lexis.Proofs.Quoting
import Mathlib.Algebra.Group.Nat.Defs

/-!
# Reading back what is quoted

A text between quotes can be read back, and so can a JSON string. Both are written one character at
a time, and what is written for a character is told from its own beginning: a backslash and a letter
say how many hexadecimal digits follow, and the first UTF-16 unit of a pair says that there is a
second. Nothing that is written for a character begins with the closing quote. So no two texts are
written alike.

Results:
1. `Text.ReadBack.flatMap_inj`: texts are told apart by what can be read back from them, one
   character at a time.
2. `Text.readBack_shownChar`, `Text.quoted_injective`: texts between quotes.
3. `Json.readBack_charText`, `Json.string_append_inj`: JSON strings, whatever stands behind them.
4. `Text.ofNat_injective`, `Text.ofInt_injective`: numerals.
-/

namespace Lexis

namespace Text

/-! ## Hexadecimal numerals -/

/-- The value of a small hexadecimal digit. -/
def hexDigitValue (c : Char) : Nat :=
  if c.isDigit then c.toNat - '0'.toNat else c.toNat - 'a'.toNat + 10

/-- The number that a hexadecimal numeral in small digits stands for. -/
def hexValue (t : Text) : Nat :=
  t.foldl (fun value c => 16 * value + hexDigitValue c) 0

theorem hexDigitValue_digitChar {d : Nat} (small : d < 16) :
    hexDigitValue (Nat.digitChar d) = d := by
  have all : ∀ d < 16, hexDigitValue (Nat.digitChar d) = d := by decide
  exact all d small

theorem hexValue_toDigits (n : Nat) : hexValue (Nat.toDigits 16 n) = n := by
  induction n using Nat.strongRecOn with
  | ind n ih =>
    by_cases small : n < 16
    · rw [Nat.toDigits_of_lt_base small]
      simp [hexValue, hexDigitValue_digitChar small]
    · have le := Nat.le_of_not_lt small
      have front : hexValue (Nat.toDigits 16 (n / 16)) = n / 16 := ih (n / 16) (by omega)
      rw [Nat.toDigits_of_base_le (by decide) le, hexValue, List.foldl_append, ← hexValue, front,
        List.foldl_cons, List.foldl_nil, hexDigitValue_digitChar (by omega)]
      omega

/-- The leading zeros count for nothing. -/
theorem hexValue_ofNatHex (width n : Nat) : hexValue (ofNatHex width n) = n := by
  have zeros (k : Nat) : (List.replicate k '0').foldl
      (fun value c => 16 * value + hexDigitValue c) 0 = 0 := by
    induction k with
    | zero => rfl
    | succ k ih => exact ih
  rw [ofNatHex, padLeft, hexValue, List.foldl_append, zeros, ← hexValue, hexValue_toDigits]

theorem length_ofNatHex {width n : Nat} (pos : 0 < width) (small : n < 16 ^ width) :
    (ofNatHex width n).length = width := by
  have le := (Nat.length_toDigits_le_iff (by decide) pos).mpr small
  rw [ofNatHex, padLeft, List.length_append, List.length_replicate]
  exact Nat.sub_add_cancel le

/-- A numeral of known width is found in front of any text. -/
theorem hexValue_take_append {n : Nat} (width : Nat) (pos : 0 < width) (small : n < 16 ^ width)
    (rest : Text) : hexValue ((ofNatHex width n ++ rest).take width) = n := by
  rw [List.take_left' (length_ofNatHex pos small), hexValue_ofNatHex]

theorem drop_append_ofNatHex {n : Nat} (width : Nat) (pos : 0 < width) (small : n < 16 ^ width)
    (rest : Text) : (ofNatHex width n ++ rest).drop width = rest :=
  List.drop_left' (length_ofNatHex pos small)

/-! ## Characters that are read back -/

/-- `ReadBack read code`: what `code` writes for a character is read back by `read`, whatever stands
behind it. -/
def ReadBack (read : Text → Option (Char × Text)) (code : Char → Text) : Prop :=
  ∀ c rest, read (code c ++ rest) = some (c, rest)

/-- Texts are told apart by what is written for their characters, up to a mark that nothing written
for a character begins with. -/
theorem ReadBack.flatMap_inj {read : Text → Option (Char × Text)} {code : Char → Text} {mark : Char}
    (reads : ReadBack read code) (opens : ∀ c, ∃ d t, code c = d :: t ∧ d ≠ mark) {a b x y : Text}
    (h : a.flatMap code ++ mark :: x = b.flatMap code ++ mark :: y) : a = b ∧ x = y := by
  induction a generalizing b with
  | nil =>
    cases b with
    | nil => exact ⟨rfl, (List.cons.inj h).2⟩
    | cons d b =>
      obtain ⟨e, t, code, other⟩ := opens d
      rw [List.flatMap_cons, code] at h
      exact absurd (List.cons.inj h).1.symm other
  | cons c a ih =>
    cases b with
    | nil =>
      obtain ⟨e, t, code, other⟩ := opens c
      rw [List.flatMap_cons, code] at h
      exact absurd (List.cons.inj h).1 other
    | cons d b =>
      rw [List.flatMap_cons, List.flatMap_cons, List.append_assoc, List.append_assoc] at h
      have first := congrArg read h
      rw [reads, reads] at first
      obtain ⟨rfl, rest⟩ := Prod.mk.inj (Option.some.inj first)
      obtain ⟨rfl, rfl⟩ := ih rest
      exact ⟨rfl, rfl⟩

/-! ## Texts between quotes -/

/-- The number of digits that give a code point behind a backslash and a letter. -/
def escapeWidths : List (Char × Nat) := [('x', 2), ('u', 4), ('U', 8)]

/-- The characters that a letter behind a backslash stands for. -/
def escapeMeanings : List (Char × Char) := [('t', '\t'), ('n', '\n'), ('r', '\r')]

/-- Reads the first character shown between quotes. -/
def readShown : Text → Option (Char × Text)
  | '\\' :: letter :: t =>
    match escapeWidths.lookup letter with
    | some width => some (Char.ofNat (hexValue (t.take width)), t.drop width)
    | none => some ((escapeMeanings.lookup letter).getD letter, t)
  | [] => none
  | c :: t => some (c, t)

theorem readShown_codePointEscape (c : Char) (rest : Text) :
    readShown (codePointEscape c ++ rest) = some (c, rest) := by
  have valid : c.toNat < 0x110000 := by
    have valid : c.toNat.isValidChar := c.valid
    unfold Nat.isValidChar at valid
    omega
  have digits {letter : Char} {width : Nat} (given : escapeWidths.lookup letter = some width)
      (pos : 0 < width) (small : c.toNat < 16 ^ width) :
      readShown ('\\' :: letter :: (ofNatHex width c.toNat ++ rest)) = some (c, rest) := by
    simp only [readShown, given, hexValue_take_append _ pos small, drop_append_ofNatHex _ pos small,
      Char.ofNat_toNat]
  unfold codePointEscape
  split
  · exact digits rfl (by decide) (by omega)
  split
  · exact digits rfl (by decide) (by omega)
  · exact digits rfl (by decide) (by omega)

theorem readShown_plain {c : Char} (plain : c ≠ '\\') (t : Text) :
    readShown (c :: t) = some (c, t) := by
  cases t <;> simp [readShown, plain]

theorem readBack_shownChar {mark : Char} (quote : mark ∈ ['\'', '"']) :
    ReadBack readShown (shownChar mark) := by
  intro c rest
  unfold shownChar
  split
  · next escaped =>
    have itself (m : Char) (mem : m = '\\' ∨ m = '\'' ∨ m = '"') :
        readShown ('\\' :: m :: rest) = some (m, rest) := by
      rcases mem with rfl | rfl | rfl <;> rfl
    refine itself c ?_
    rcases escaped with rfl | rfl
    · exact .inr (by simpa using quote)
    · exact .inl rfl
  next unescaped =>
  split
  · next tab => subst tab; rfl
  split
  · next newline => subst newline; rfl
  split
  · next carriageReturn => subst carriageReturn; rfl
  split
  · exact readShown_plain (fun backslash => unescaped (.inr backslash)) rest
  · exact readShown_codePointEscape c rest

/-- Nothing that is shown for a character begins with the quote in use. -/
theorem exists_head_shownChar {mark : Char} (quote : mark ∈ ['\'', '"']) (c : Char) :
    ∃ d t, shownChar mark c = d :: t ∧ d ≠ mark := by
  have backslash : '\\' ≠ mark := by
    rintro rfl
    exact absurd quote (by decide)
  obtain ⟨letter, _, width, escaped⟩ := exists_codePointEscape c
  unfold shownChar
  split
  · exact ⟨_, _, rfl, backslash⟩
  next unescaped =>
  split
  · exact ⟨_, _, rfl, backslash⟩
  split
  · exact ⟨_, _, rfl, backslash⟩
  split
  · exact ⟨_, _, rfl, backslash⟩
  split
  · exact ⟨c, [], rfl, fun same => unescaped (.inl same)⟩
  · exact ⟨_, _, escaped, backslash⟩

theorem quoteMark_mem (t : Text) : quoteMark t ∈ ['\'', '"'] := by
  unfold quoteMark
  split <;> decide

/-- No two texts are shown alike between quotes. -/
theorem quoted_injective {a b : Text} (h : quoted a = quoted b) : a = b := by
  have marks : quoteMark a = quoteMark b := (List.cons.inj h).1
  have shown := (List.cons.inj h).2
  rw [marks] at shown
  have quote := quoteMark_mem b
  exact ((readBack_shownChar quote).flatMap_inj (exists_head_shownChar quote) shown).1

/-! ## Numerals -/

theorem ofNat_injective {m n : Nat} (h : ofNat m = ofNat n) : m = n := by
  have value := congrArg (Nat.ofDigitChars 10 · 0) h
  simpa [ofNat] using value

/-- No two integers have the same numeral: no numeral of a natural number begins with a minus
sign. -/
theorem ofInt_injective {m n : Int} (h : ofInt m = ofInt n) : m = n := by
  have digits (k l : Nat) : '-' :: ofNat k ≠ ofNat l := by
    intro same
    have mem : '-' ∈ ofNat l := same ▸ List.mem_cons_self
    obtain ⟨d, eq⟩ := exists_digitChar_of_mem_toDigits (by decide) mem
    exact absurd (eq ▸ digitChar_mem d) (by decide)
  unfold ofInt at h
  split at h <;> split at h
  · have := ofNat_injective (List.cons.inj h).2
    omega
  · exact absurd h (digits _ _)
  · exact absurd h.symm (digits _ _)
  · have := ofNat_injective h
    omega

end Text

/-! ## JSON strings -/

namespace Json

open Text

/-- The characters that a letter behind a backslash stands for. -/
def meanings : List (Char × Char) :=
  [('b', '\x08'), ('t', '\t'), ('n', '\n'), ('f', '\x0c'), ('r', '\r')]

/-- Reads the first character of a JSON string: one given by itself, by a backslash and a letter, by
one UTF-16 unit or by two. -/
def readChar : Text → Option (Char × Text)
  | '\\' :: 'u' :: t =>
    let first := hexValue (t.take 4)
    if 0xd800 ≤ first ∧ first < 0xe000 then
      let second := hexValue ((t.drop 6).take 4)
      some (Char.ofNat (0x10000 + (first - 0xd800) * 0x400 + (second - 0xdc00)), t.drop 10)
    else some (Char.ofNat first, t.drop 4)
  | '\\' :: letter :: t => some ((meanings.lookup letter).getD letter, t)
  | [] => none
  | c :: t => some (c, t)

theorem readChar_plain {c : Char} (plain : c ≠ '\\') (t : Text) :
    readChar (c :: t) = some (c, t) := by
  cases t <;> simp [readChar, plain]

theorem readChar_unit {n : Nat} (small : n < 0x10000) (single : ¬ (0xd800 ≤ n ∧ n < 0xe000))
    (rest : Text) : readChar (unit n ++ rest) = some (Char.ofNat n, rest) := by
  have value := hexValue_take_append 4 (by decide) small rest
  have behind := drop_append_ofNatHex 4 (by decide) small rest
  simp only [unit, List.cons_append, readChar, value, behind, if_neg single]

theorem readChar_units {m n : Nat} (first : 0xd800 ≤ m ∧ m < 0xe000) (second : n < 0x10000)
    (rest : Text) : readChar (unit m ++ unit n ++ rest) =
      some (Char.ofNat (0x10000 + (m - 0xd800) * 0x400 + (n - 0xdc00)), rest) := by
  have small : m < 16 ^ 4 := by omega
  have value := hexValue_take_append 4 (by decide) small (unit n ++ rest)
  have value' := hexValue_take_append 4 (by decide) second rest
  have behind := drop_append_ofNatHex 4 (by decide) second rest
  have between : (ofNatHex 4 m ++ (unit n ++ rest)).drop 6 = ofNatHex 4 n ++ rest := by
    rw [← List.drop_drop (i := 2) (j := 4), drop_append_ofNatHex 4 (by decide) small]
    rfl
  have last : (ofNatHex 4 m ++ (unit n ++ rest)).drop 10 = rest := by
    rw [← List.drop_drop (i := 4) (j := 6), between, behind]
  rw [List.append_assoc]
  show readChar ('\\' :: 'u' :: (ofNatHex 4 m ++ (unit n ++ rest))) = _
  simp only [readChar, value, between, value', last, if_pos first]

theorem readBack_charText : ReadBack readChar charText := by
  intro c rest
  have valid : c.toNat.isValidChar := c.valid
  unfold Nat.isValidChar at valid
  unfold charText
  split
  · next escaped => rcases escaped with rfl | rfl <;> rfl
  next unescaped =>
  split
  · next backspace => subst backspace; rfl
  split
  · next tab => subst tab; rfl
  split
  · next newline => subst newline; rfl
  split
  · next formFeed => subst formFeed; rfl
  split
  · next carriageReturn => subst carriageReturn; rfl
  split
  · exact readChar_plain (fun backslash => unescaped (.inr backslash)) rest
  split
  · next small =>
    rw [readChar_unit small (by omega), Char.ofNat_toNat]
  · next large =>
    have point : 0x10000 + (0xd800 + (c.toNat - 0x10000) / 0x400 - 0xd800) * 0x400 +
        (0xdc00 + (c.toNat - 0x10000) % 0x400 - 0xdc00) = c.toNat := by omega
    rw [readChar_units (by omega) (by omega), point, Char.ofNat_toNat]

/-- Nothing that is written for a character begins with the closing quote. -/
theorem exists_head_charText (c : Char) : ∃ d t, charText c = d :: t ∧ d ≠ '"' := by
  have backslash : '\\' ≠ '"' := by decide
  unfold charText
  split
  · exact ⟨_, _, rfl, backslash⟩
  next unescaped =>
  split
  · exact ⟨_, _, rfl, backslash⟩
  split
  · exact ⟨_, _, rfl, backslash⟩
  split
  · exact ⟨_, _, rfl, backslash⟩
  split
  · exact ⟨_, _, rfl, backslash⟩
  split
  · exact ⟨_, _, rfl, backslash⟩
  split
  · exact ⟨c, [], rfl, fun same => unescaped (.inl same)⟩
  split
  · exact ⟨_, _, rfl, backslash⟩
  · exact ⟨_, _, rfl, backslash⟩

/-- No two texts are the same JSON string, whatever stands behind it. -/
theorem string_append_inj {a b x y : Text} (h : string a ++ x = string b ++ y) :
    a = b ∧ x = y := by
  have tails : a.flatMap charText ++ '"' :: x = b.flatMap charText ++ '"' :: y := by
    simpa [string] using h
  exact readBack_charText.flatMap_inj exists_head_charText tails

/-! ## The characters of a JSON string -/

/-- The characters from the space to the tilde. -/
def IsVisible (c : Char) : Prop := 0x20 ≤ c.toNat ∧ c.toNat < 0x7f

instance (c : Char) : Decidable (IsVisible c) := inferInstanceAs (Decidable (_ ∧ _))

theorem isVisible_of_all {t : Text} {c : Char} (visible : t.all (IsVisible ·) = true)
    (h : c ∈ t) : IsVisible c :=
  of_decide_eq_true (List.all_eq_true.mp visible c h)

theorem isVisible_of_mem_unit {n : Nat} {c : Char} (h : c ∈ unit n) : IsVisible c := by
  rcases List.mem_cons.mp h with rfl | h
  · decide
  rcases List.mem_cons.mp h with rfl | digit
  · decide
  · obtain ⟨d, rfl⟩ := exists_digitChar_of_mem_ofNatHex digit
    exact isVisible_of_all (by decide) (digitChar_mem d)

theorem isVisible_of_mem_charText {c x : Char} (h : x ∈ charText c) : IsVisible x := by
  have pair {y : Char} (visible : IsVisible y) (h : x ∈ ['\\', y]) : IsVisible x := by
    rcases List.mem_cons.mp h with rfl | last
    · decide
    · rwa [List.mem_singleton.mp last]
  unfold charText at h
  split at h
  · next escaped =>
    refine pair ?_ h
    rcases escaped with rfl | rfl <;> decide
  split at h
  · exact pair (by decide) h
  split at h
  · exact pair (by decide) h
  split at h
  · exact pair (by decide) h
  split at h
  · exact pair (by decide) h
  split at h
  · exact pair (by decide) h
  split at h
  · next visible =>
    rw [List.mem_singleton.mp h]
    exact ⟨visible.1, Nat.lt_succ_of_le visible.2⟩
  split at h
  · exact isVisible_of_mem_unit h
  · rcases List.mem_append.mp h with first | second
    · exact isVisible_of_mem_unit first
    · exact isVisible_of_mem_unit second

/-- A JSON string is made of characters from the space to the tilde. -/
theorem isVisible_of_mem_string {t : Text} {c : Char} (h : c ∈ string t) : IsVisible c := by
  rcases List.mem_append.mp h with front | last
  · rcases List.mem_cons.mp front with rfl | written
    · decide
    · obtain ⟨x, _, written⟩ := List.mem_flatMap.mp written
      exact isVisible_of_mem_charText written
  · rw [List.mem_singleton.mp last]
    decide

end Json

end Lexis
