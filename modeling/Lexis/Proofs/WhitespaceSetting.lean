import Lexis.Options

/-!
# The whitespace that a variable sets

The value of the variable is decoded by one replacement after the other, and no escape stands for
the backslash itself. So a replacement could make the pair that the next one replaces, and a
backslash in the set could be taken for the beginning of an escape. Neither happens to a set that
may be skipped: it holds no letters, and each letter of the value is the end of an escape.

Results:
1. `Escaping.decode`, `Escaping.of_decode`: what one replacement does to a text with escapes.
2. `decodeAll_eq_iff`: any number of replacements, by induction on the table of escapes.
3. `whitespace_of_environment_iff`: the values of the variable that set given whitespace.
-/

namespace Lexis.Environment

/-! ## Texts with escapes -/

/-- `Escaping escapes t value`: the value is the text, in which each character that has an escape is
written as it is or as a backslash and the letter of the escape. -/
inductive Escaping (escapes : List (Char × Char)) : Text → Text → Prop
  | nil : Escaping escapes [] []
  | raw {c : Char} {t value : Text} : Escaping escapes t value →
      Escaping escapes (c :: t) (c :: value)
  | escaped {letter meaning : Char} {t value : Text} : (letter, meaning) ∈ escapes →
      Escaping escapes t value → Escaping escapes (meaning :: t) ('\\' :: letter :: value)

/-- The escapes of a table, each a letter and its meaning, do not get in each other's way: a letter
has one meaning, no meaning is a backslash, and no letter is a backslash or a meaning. -/
structure Unambiguous (escapes : List (Char × Char)) : Prop where
  nodup : (escapes.map Prod.fst).Nodup
  meaning : '\\' ∉ escapes.map Prod.snd
  letter : ∀ escape ∈ escapes, escape.1 ∉ '\\' :: escapes.map Prod.snd

/-- The escapes of a table decoded, one after the other. -/
def decodeAll (escapes : List (Char × Char)) (value : Text) : Text :=
  escapes.foldl (fun value escape => decodeEscape escape.1 escape.2 value) value

/-- The escapes in a list of characters to be skipped, in the order in which they are decoded. -/
def whitespaceEscapes : List (Char × Char) := [('n', '\n'), ('r', '\r'), ('t', '\t')]

theorem unambiguous_whitespaceEscapes : Unambiguous whitespaceEscapes :=
  ⟨by decide, by decide, by decide⟩

theorem decodeWhitespace_eq (value : Text) :
    decodeWhitespace value = decodeAll whitespaceEscapes value := rfl

variable {letter meaning : Char} {escapes : List (Char × Char)} {t value : Text}

theorem Unambiguous.tail {escape : Char × Char} (table : Unambiguous (escape :: escapes)) :
    Unambiguous escapes where
  nodup := table.nodup.of_cons
  meaning mem := table.meaning (List.mem_cons_of_mem _ mem)
  letter other mem clash := by
    refine table.letter other (List.mem_cons_of_mem _ mem) ?_
    exact List.cons_subset_cons _ (List.subset_cons_self _ _) clash

/-! ## One replacement -/

theorem decodeEscape_pair : decodeEscape letter meaning ('\\' :: letter :: value) =
    meaning :: decodeEscape letter meaning value := by
  rw [decodeEscape, if_pos ⟨rfl, rfl⟩]

/-- A character that does not begin the escape stays. -/
theorem decodeEscape_cons {c : Char} (alone : c = '\\' → value.head? ≠ some letter) :
    decodeEscape letter meaning (c :: value) = c :: decodeEscape letter meaning value := by
  cases value with
  | nil => rfl
  | cons d value =>
    have other : ¬ (c = '\\' ∧ d = letter) := fun pair => alone pair.1 (congrArg some pair.2)
    rw [decodeEscape, if_neg other]

namespace Escaping

theorem head_eq_or_mem {c : Char} (h : Escaping escapes t value) (first : value.head? = some c) :
    c = '\\' ∨ c ∈ t := by
  cases h with
  | nil => cases first
  | raw => exact .inr (Option.some.inj first ▸ List.mem_cons_self)
  | escaped => exact .inl (Option.some.inj first).symm

theorem eq_of_nil (h : Escaping [] t value) : value = t := by
  induction h with
  | nil => rfl
  | raw _ ih => rw [ih]
  | escaped mem => exact absurd mem List.not_mem_nil

protected theorem refl (escapes : List (Char × Char)) (t : Text) : Escaping escapes t t := by
  induction t with
  | nil => exact .nil
  | cons c t ih => exact .raw ih

/-- When an escape is decoded whose letter is not in the text, the value is still the text with
escapes. -/
theorem decode (table : Unambiguous ((letter, meaning) :: escapes)) (free : letter ∉ t)
    (h : Escaping ((letter, meaning) :: escapes) t value) :
    Escaping escapes t (decodeEscape letter meaning value) := by
  induction h with
  | nil => exact .nil
  | @raw c t value h ih =>
    rw [List.mem_cons, not_or] at free
    have alone : value.head? ≠ some letter := by
      intro first
      rcases h.head_eq_or_mem first with slash | mem
      · exact table.letter _ List.mem_cons_self (slash ▸ List.mem_cons_self)
      · exact free.2 mem
    rw [decodeEscape_cons fun _ => alone]
    exact .raw (ih free.2)
  | @escaped other _ t value mem h ih =>
    rw [List.mem_cons, not_or] at free
    rcases List.mem_cons.mp mem with same | later
    · cases same
      rw [decodeEscape_pair]
      exact .raw (ih free.2)
    · have slash : other ≠ '\\' := by
        rintro rfl
        exact table.letter _ mem List.mem_cons_self
      have differs : (other :: value).head? ≠ some letter := by
        intro first
        have same : other = letter := Option.some.inj first
        have again : other ∈ escapes.map Prod.fst := List.mem_map_of_mem later
        exact (List.nodup_cons.mp table.nodup).1 (same ▸ again)
      rw [decodeEscape_cons fun _ => differs, decodeEscape_cons fun same => absurd same slash]
      exact .escaped later (ih free.2)

/-- Decoding an escape makes no new one: what is a text with escapes afterwards was one before. -/
theorem of_decode (table : Unambiguous ((letter, meaning) :: escapes))
    (h : Escaping escapes t (decodeEscape letter meaning value)) :
    Escaping ((letter, meaning) :: escapes) t value := by
  fun_induction decodeEscape letter meaning value generalizing t with
  | case1 =>
    cases h
    exact .nil
  | case2 c =>
    cases h with
    | raw h =>
      cases h
      exact .raw .nil
  | case3 c d value pair ih =>
    obtain ⟨rfl, rfl⟩ := pair
    generalize decodeEscape d meaning value = rest at h ih
    cases h with
    | raw h => exact .escaped List.mem_cons_self (ih h)
    | escaped => exact absurd List.mem_cons_self table.meaning
  | case4 c d value _ ih =>
    generalize decodeEscape letter meaning (d :: value) = rest at h ih
    cases h with
    | raw h => exact .raw (ih h)
    | @escaped other _ t rest mem h =>
      have member : (other, _) ∈ (letter, meaning) :: escapes := List.mem_cons_of_mem _ mem
      -- what stands behind the backslash is the letter itself, for no escape means a letter
      have behind : Escaping ((letter, meaning) :: escapes) (other :: t) (d :: value) := ih (.raw h)
      cases behind with
      | raw behind => exact .escaped member behind
      | escaped clash =>
        have meant : other ∈ ((letter, meaning) :: escapes).map Prod.snd :=
          List.mem_map_of_mem clash
        exact absurd (List.mem_cons_of_mem _ meant) (table.letter _ member)

end Escaping

/-! ## All replacements -/

/-- A text that holds no letter of the table is decoded from exactly those values that are the text
with escapes. -/
theorem decodeAll_eq_iff (table : Unambiguous escapes) (free : ∀ escape ∈ escapes, escape.1 ∉ t) :
    decodeAll escapes value = t ↔ Escaping escapes t value := by
  induction escapes generalizing value with
  | nil =>
    constructor
    · rintro rfl
      exact .refl _ _
    · exact Escaping.eq_of_nil
  | cons escape escapes ih =>
    obtain ⟨first, rest⟩ := List.forall_mem_cons.mp free
    have later : decodeAll (escape :: escapes) value = t ↔
        Escaping escapes t (decodeEscape escape.1 escape.2 value) := ih table.tail rest
    rw [later]
    exact ⟨Escaping.of_decode table, Escaping.decode table first⟩

/-- A text that holds a letter of the table may be decoded from no value: here even the text itself
becomes another. -/
example : Escaping whitespaceEscapes ['\\', 'n'] ['\\', 'n'] ∧
    decodeWhitespace ['\\', 'n'] = ['\n'] :=
  ⟨.refl _ _, rfl⟩

/-! ## Options -/

/-- What may be skipped holds no letter of an escape. -/
theorem letter_not_mem_whitespace (o : Options) :
    ∀ escape ∈ whitespaceEscapes, escape.1 ∉ o.whitespace := by
  have starts : ∀ escape ∈ whitespaceEscapes, escape.1 ∈ Alphabet.tokenStarts := by decide
  intro escape mem white
  exact o.starts_free _ white (starts escape mem)

theorem options_of_lookup {env : Environment} (unset : env.lookup strictVariable = none)
    (set : env.lookup whitespaceVariable = some value) :
    options env = Options.make .strict (decodeWhitespace value) := by
  rw [options, unset, set]
  rfl

/-- The variable can set any whitespace that options may have, and a value sets it if and only if it
is that whitespace with escapes: each line feed, carriage return and tab is written as it is or as a
backslash and a letter, and all else, backslashes among it, as it is. -/
theorem whitespace_of_environment_iff {mode : Mode} {whitespace : Text} {o : Options}
    (accepted : Options.make mode whitespace = .ok o) (value : Text) :
    (∃ p, options [(whitespaceVariable, value)] = .ok p ∧ p.mode = .strict ∧
      p.whitespace = whitespace) ↔ Escaping whitespaceEscapes whitespace value := by
  obtain ⟨rfl, rfl⟩ := Options.make_eq_ok_iff.mp accepted
  have asked : options [(whitespaceVariable, value)] =
      Options.make .strict (decodeWhitespace value) := options_of_lookup (by rfl) (by rfl)
  rw [asked, ← decodeAll_eq_iff unambiguous_whitespaceEscapes (letter_not_mem_whitespace o),
    ← decodeWhitespace_eq]
  constructor
  · rintro ⟨p, made, _, same⟩
    rw [← same, (Options.make_eq_ok_iff.mp made).2]
  · intro decoded
    rw [decoded]
    exact ⟨{ o with mode := .strict }, Options.make_eq_ok_iff.mpr ⟨rfl, rfl⟩, rfl, rfl⟩

/-- A backslash before a line feed that is written as an escape, and one before a tab that is
not. -/
theorem whitespace_of_environment_backslashes :
    (∃ o, Options.make .lenient [' ', '\\', '\n', '\\', '\t'] = .ok o) ∧
    Escaping whitespaceEscapes [' ', '\\', '\n', '\\', '\t'] " \\\\n\\\t".toList ∧
    ∃ p, options [(whitespaceVariable, " \\\\n\\\t".toList)] = .ok p ∧ p.mode = .strict ∧
      p.whitespace = [' ', '\\', '\n', '\\', '\t'] := by
  obtain ⟨o, accepted⟩ : ∃ o, Options.make .lenient [' ', '\\', '\n', '\\', '\t'] = .ok o :=
    ⟨_, rfl⟩
  have escaping : Escaping whitespaceEscapes [' ', '\\', '\n', '\\', '\t']
      " \\\\n\\\t".toList :=
    .raw (.raw (.escaped (by decide) (.raw (.raw .nil))))
  exact ⟨⟨o, accepted⟩, escaping, (whitespace_of_environment_iff accepted _).mpr escaping⟩

end Lexis.Environment
