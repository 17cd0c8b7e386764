import Lexis.Proofs.Grammar

/-!
# Literals in the two modes

Strict and lenient reading have a scanner each for either kind of literal. Here the two are put side
by side, from behind the opening quote on: where the strict one gives a token, the lenient one should
give the same token without a flaw, and where the strict one refuses, a token with just that flaw.
The results say exactly when it does.

Two things stand in the way. Lenient reading takes the character right behind an escape as it is,
even a backslash, so it may lose step with the escapes of a string. How far it is from strict
reading, at every character and escape of the latter, is its `Pace`; most often it is level again
after a few characters, but some quotes and backslashes it takes for something else for good
(`StringLiteral.keepsStep`). And it looks one character ahead before it reads on, so it does not see
what is wrong with the last character of the text.

Results:
1. `StringLiteral.lenient_eq_token_iff`, `StringLiteral.lenient_notes_iff`: strings.
2. `CharacterLiteral.lenient_of_strict_token`, `CharacterLiteral.lenient_notes_iff`: character
   literals.
-/

namespace Lexis

open Alphabet

namespace StringLiteral

/-- Where lenient reading of a string is while strict reading stands between two of its characters
and escapes: at the same place, right behind an escape (`escaped`) or not (`level`); or one
backslash back, which it will read as the beginning of an escape (`behind`) or take as it is
(`asIs`). -/
inductive Pace
  | level
  | escaped
  | behind
  | asIs
deriving DecidableEq

namespace Pace

/-- Past a plain character. If a backslash is unread, the two must make an escape. -/
def plain? (c : Char) : Pace → Option Pace
  | level | escaped => some level
  | behind => if c ∈ escapeLetters then some escaped else none
  | asIs => if c ∈ escapeLetters then some level else none

/-- Past an escape. If lenient reading has done with its backslash before it comes to the letter, a
quote closes the literal and a backslash is the one that is unread. -/
def escape? (letter : Char) : Pace → Option Pace
  | level | asIs => some escaped
  | escaped => if letter = '"' then none else if letter = '\\' then some behind else some level
  | behind => if letter = '"' then none else if letter = '\\' then some asIs else some level

theorem plain?_behind_eq_some {c : Char} {next : Pace} :
    plain? c behind = some next ↔ c ∈ escapeLetters ∧ escaped = next := by
  simp [plain?]

theorem plain?_asIs_eq_some {c : Char} {next : Pace} :
    plain? c asIs = some next ↔ c ∈ escapeLetters ∧ level = next := by
  simp [plain?]

end Pace

/-- Whether lenient reading keeps step with strict reading to the end of a literal, or to what is
wrong with it. -/
def keepsStep (pace : Pace) : Text → Bool
  | [] => true
  | c :: t =>
    if c = '"' then pace ≠ .behind
    else if c ∈ lineTerminators then pace = .level ∨ pace = .escaped
    else if c = '\\' then
      match t with
      | [] => true
      | e :: t =>
        if e ∈ escapeLetters then
          match pace.escape? e with
          | some next => keepsStep next t
          | none => false
        else pace ≠ .behind
    else
      match pace.plain? c with
      | some next => keepsStep next t
      | none => false

variable {depth : Nat} {escaped : Bool} {flaw : Option Flaw} {pace next : Pace} {c d e : Char}
  {t : Text}

/-! ## Lenient reading, one character at a time -/

theorem lenient_quote : lenient depth escaped flaw ('"' :: t) = .token .string depth flaw := by
  cases t <;> rw [lenient, if_pos rfl]

theorem lenient_escape (letter : d ∈ escapeLetters) :
    lenient depth false flaw ('\\' :: d :: t) = lenient (depth + 2) true flaw t := by
  rw [lenient, if_neg (by decide), if_pos ⟨rfl, Bool.false_ne_true⟩, if_pos letter]

theorem lenient_badEscape (letter : d ∉ escapeLetters) :
    lenient depth false none ('\\' :: d :: t) =
      .token .string depth (some ⟨.invalidEscape d, depth + 1⟩) := by
  rw [lenient, if_neg (by decide), if_pos ⟨rfl, Bool.false_ne_true⟩, if_neg letter]
  rfl

theorem lenient_as_is (quote : c ≠ '"') (asIs : c = '\\' → escaped = true) :
    lenient depth escaped flaw (c :: d :: t) =
      lenient (depth + 1) false (flaw.or (plainFlaw? depth c d)) (d :: t) := by
  rw [lenient, if_neg quote, if_neg]
  rintro ⟨backslash, notEscaped⟩
  exact notEscaped (asIs backslash)

theorem plainFlaw?_plain (line : c ∉ lineTerminators) (backslash : c ≠ '\\') :
    plainFlaw? depth c d = none := by
  rw [plainFlaw?, if_neg line, if_neg fun h => backslash h.1]

theorem not_line_of_letter (letter : e ∈ escapeLetters) : e ∉ lineTerminators := by
  have all : ∀ f ∈ escapeLetters, f ∉ lineTerminators := forall_mem_of_all (by decide)
  exact all e letter

theorem lenient_escape_as_is (letter : e ∈ escapeLetters) :
    lenient depth true none ('\\' :: e :: t) = lenient (depth + 1) false none (e :: t) := by
  rw [lenient_as_is (by decide) fun _ => rfl, plainFlaw?, if_neg (by decide),
    if_neg fun h => h.2 letter]
  rfl

theorem lenient_badEscape_as_is (letter : d ∉ escapeLetters) :
    lenient depth true none ('\\' :: d :: t) =
      lenient (depth + 1) false (some ⟨.invalidEscape d, depth + 1⟩) (d :: t) := by
  rw [lenient_as_is (by decide) fun _ => rfl, plainFlaw?, if_neg (by decide),
    if_pos ⟨rfl, letter⟩]
  rfl

theorem lenient_plain (quote : c ≠ '"') (line : c ∉ lineTerminators) (backslash : c ≠ '\\') :
    lenient depth escaped none (c :: d :: t) = lenient (depth + 1) false none (d :: t) := by
  rw [lenient_as_is quote fun h => absurd h backslash, plainFlaw?_plain line backslash]
  rfl

theorem lenient_last (quote : c ≠ '"') : ∃ n, lenient depth escaped none [c] =
    .token .string n (some ⟨.unterminated .string, depth + 1⟩) := by
  rw [lenient, if_neg quote]
  exact ⟨_, rfl⟩

/-- Once a flaw is noted, it is the one that stays. -/
theorem lenient_some (depth : Nat) (escaped : Bool) (f : Flaw) (t : Text) :
    ∃ n, lenient depth escaped (some f) t = .token .string n (some f) := by
  generalize noted : some f = flaw
  fun_induction lenient depth escaped flaw t with
  | case1 | case2 | case3 | case4 | case6 =>
    subst noted
    exact ⟨_, rfl⟩
  | case5 _ _ _ _ _ _ _ _ _ ih => exact ih noted
  | case7 _ _ _ _ _ _ _ _ ih =>
    subst noted
    exact ih rfl

/-- A literal without a flaw ends at a quote that has not been read yet. -/
theorem le_of_lenient_token {kind : Kind} {n : Nat}
    (h : lenient depth escaped flaw t = .token kind n none) : depth ≤ n := by
  fun_induction lenient depth escaped flaw t with
  | case1 _ _ flaw | case3 _ _ flaw | case6 _ _ flaw => cases flaw <;> cases h
  | case2 | case4 =>
    cases h
    exact Nat.le_refl _
  | case5 _ _ _ _ _ _ _ _ _ ih => exact Nat.le_of_add_right_le (ih h)
  | case7 _ _ _ _ _ _ _ _ ih => exact Nat.le_of_succ_le (ih h)

/-- A bad escape is blamed on its letter, behind a backslash that has not been read yet. -/
theorem lt_of_lenient_invalidEscape {kind : Kind} {n p : Nat}
    (h : lenient depth escaped none t = .token kind n (some ⟨.invalidEscape e, p⟩)) : depth < p := by
  generalize clear : none = flaw at h
  fun_induction lenient depth escaped flaw t with
  | case1 | case2 | case3 | case4 =>
    subst clear
    cases h
  | case5 _ _ _ _ _ _ _ _ _ ih => exact Nat.lt_of_le_of_lt (Nat.le_add_right _ 2) (ih clear h)
  | case6 =>
    subst clear
    cases h
    exact Nat.lt_succ_self _
  | case7 depth _ _ c d t _ _ ih =>
    subst clear
    cases noted : plainFlaw? depth c d with
    | none => exact Nat.lt_of_succ_lt (ih (by rw [noted]; rfl) h)
    | some f =>
      rw [noted] at h
      obtain ⟨m, same⟩ := lenient_some (depth + 1) false f (d :: t)
      cases same.symm.trans h
      unfold plainFlaw? at noted
      split at noted
      · cases noted
      split at noted
      · cases noted
        exact Nat.lt_succ_self _
      · cases noted

/-! ## Lenient reading at a pace -/

/-- What lenient reading makes of the text that strict reading is at, `depth` characters on. -/
def Pace.read (depth : Nat) (t : Text) : Pace → Scan
  | .level => lenient depth false none t
  | .escaped => lenient depth true none t
  | .behind => lenient (depth - 1) false none ('\\' :: t)
  | .asIs => lenient (depth - 1) true none ('\\' :: t)

theorem Pace.read_nil (pos : 0 < depth) : ∃ n, pace.read depth [] =
    .token .string n (some ⟨.unterminated .string, depth⟩) := by
  obtain ⟨depth, rfl⟩ := Nat.exists_eq_add_one.mpr pos
  cases pace with
  | level | escaped => exact ⟨_, rfl⟩
  | behind | asIs => exact lenient_last (by decide)

theorem Pace.read_backslash (pos : 0 < depth) : ∃ n, pace.read depth ['\\'] =
    .token .string n (some ⟨.unterminated .string, depth + 1⟩) := by
  obtain ⟨depth, rfl⟩ := Nat.exists_eq_add_one.mpr pos
  have letter : '\\' ∈ escapeLetters := by decide
  cases pace with
  | level | escaped => exact lenient_last (c := '\\') (by decide)
  | behind => exact ⟨_, lenient_escape letter⟩
  | asIs =>
    show ∃ n, lenient depth true none ['\\', '\\'] = _
    rw [lenient_escape_as_is letter]
    exact lenient_last (by decide)

/-- A token that strict reading, `depth` characters on, can no longer give out: it ends too early,
or it has a flaw in what strict reading has passed. -/
def Early (depth : Nat) (s : Scan) : Prop :=
  ∃ n flaw, s = .token .string n flaw ∧ (flaw = none → n < depth) ∧ ∀ f ∈ flaw, f.depth < depth

theorem Pace.read_plain (quote : c ≠ '"') (line : c ∉ lineTerminators) (backslash : c ≠ '\\')
    (pos : 0 < depth) (step : pace.plain? c = some next) :
    pace.read depth (c :: d :: t) = next.read (depth + 1) (d :: t) := by
  obtain ⟨depth, rfl⟩ := Nat.exists_eq_add_one.mpr pos
  cases pace with
  | level | escaped =>
    cases step
    exact lenient_plain quote line backslash
  | behind =>
    obtain ⟨letter, rfl⟩ := plain?_behind_eq_some.mp step
    exact lenient_escape letter
  | asIs =>
    obtain ⟨letter, rfl⟩ := plain?_asIs_eq_some.mp step
    exact (lenient_escape_as_is letter).trans (lenient_plain quote line backslash)

theorem Pace.read_plain_last (quote : c ≠ '"') (pos : 0 < depth)
    (step : pace.plain? c = some next) :
    ∃ n, pace.read depth [c] = .token .string n (some ⟨.unterminated .string, depth + 1⟩) := by
  obtain ⟨depth, rfl⟩ := Nat.exists_eq_add_one.mpr pos
  cases pace with
  | level | escaped => exact lenient_last quote
  | behind =>
    obtain ⟨letter, rfl⟩ := plain?_behind_eq_some.mp step
    exact ⟨_, lenient_escape letter⟩
  | asIs =>
    obtain ⟨letter, rfl⟩ := plain?_asIs_eq_some.mp step
    show ∃ n, lenient depth true none ['\\', c] = _
    rw [lenient_escape_as_is letter]
    exact lenient_last quote

theorem Pace.early_plain (pos : 0 < depth) (lost : pace.plain? c = none) :
    Early (depth + 1) (pace.read depth (c :: t)) := by
  obtain ⟨depth, rfl⟩ := Nat.exists_eq_add_one.mpr pos
  cases pace with
  | level | escaped => cases lost
  | behind =>
    have letter : c ∉ escapeLetters := by simpa [plain?] using lost
    refine ⟨_, _, lenient_badEscape letter, nofun, ?_⟩
    rintro _ ⟨⟩
    exact Nat.lt_succ_self _
  | asIs =>
    have letter : c ∉ escapeLetters := by simpa [plain?] using lost
    obtain ⟨n, same⟩ := lenient_some (depth + 1) false ⟨.invalidEscape c, depth + 1⟩ (c :: t)
    refine ⟨n, _, (lenient_badEscape_as_is letter).trans same, nofun, ?_⟩
    rintro _ ⟨⟩
    exact Nat.lt_succ_self _

/-- The letter of an escape whose backslash has been read: `unread` is the pace with a backslash
that has not. -/
theorem Pace.read_letter {unread : Pace} (line : e ∉ lineTerminators)
    (step : (if e = '"' then none else if e = '\\' then some unread else some level) = some next)
    (back : unread.read (depth + 1) (d :: t) = lenient depth escaped none ('\\' :: d :: t)) :
    lenient depth escaped none (e :: d :: t) = next.read (depth + 1) (d :: t) := by
  split at step
  · cases step
  split at step
  · next same =>
    cases step
    rw [same, back]
  · next quote other =>
    cases step
    exact lenient_plain quote line other

theorem Pace.read_escape (letter : e ∈ escapeLetters) (pos : 0 < depth)
    (step : pace.escape? e = some next) :
    pace.read depth ('\\' :: e :: d :: t) = next.read (depth + 2) (d :: t) := by
  obtain ⟨depth, rfl⟩ := Nat.exists_eq_add_one.mpr pos
  have line := not_line_of_letter letter
  have backslash : '\\' ∈ escapeLetters := by decide
  cases pace with
  | level =>
    cases step
    exact lenient_escape letter
  | asIs =>
    cases step
    exact (lenient_escape_as_is backslash).trans (lenient_escape letter)
  | escaped => exact (lenient_escape_as_is letter).trans (read_letter line step rfl)
  | behind => exact (lenient_escape backslash).trans (read_letter line step rfl)

theorem Pace.read_escape_last (letter : e ∈ escapeLetters) (pos : 0 < depth)
    (step : pace.escape? e = some next) :
    ∃ n, pace.read depth ['\\', e] =
      .token .string n (some ⟨.unterminated .string, depth + 2⟩) := by
  obtain ⟨depth, rfl⟩ := Nat.exists_eq_add_one.mpr pos
  have backslash : '\\' ∈ escapeLetters := by decide
  have quote (late : pace = .escaped ∨ pace = .behind) : e ≠ '"' := by
    rintro rfl
    rcases late with rfl | rfl <;> cases step
  cases pace with
  | level => exact ⟨_, lenient_escape letter⟩
  | asIs => exact ⟨_, (lenient_escape_as_is backslash).trans (lenient_escape letter)⟩
  | escaped =>
    show ∃ n, lenient (depth + 1) true none ['\\', e] = _
    rw [lenient_escape_as_is letter]
    exact lenient_last (quote (.inl rfl))
  | behind =>
    show ∃ n, lenient depth false none ['\\', '\\', e] = _
    rw [lenient_escape backslash]
    exact lenient_last (quote (.inr rfl))

theorem Pace.early_escape (pos : 0 < depth) (lost : pace.escape? e = none) :
    Early (depth + 2) (pace.read depth ('\\' :: e :: t)) := by
  obtain ⟨depth, rfl⟩ := Nat.exists_eq_add_one.mpr pos
  have quote : e = '"' ∧ (pace = .escaped ∨ pace = .behind) := by
    cases pace <;> simp only [escape?] at lost <;> grind
  obtain ⟨rfl, rfl | rfl⟩ := quote
  · refine ⟨_, none, (lenient_escape_as_is (by decide)).trans lenient_quote, ?_, nofun⟩
    exact fun _ => Nat.lt_succ_self _
  · refine ⟨_, none, (lenient_escape (by decide)).trans lenient_quote, ?_, nofun⟩
    exact fun _ => Nat.lt_succ_self _

theorem Pace.read_quote_iff (pos : 0 < depth) :
    pace.read depth ('"' :: t) = .token .string depth none ↔ pace ≠ .behind := by
  obtain ⟨depth, rfl⟩ := Nat.exists_eq_add_one.mpr pos
  have letter : '"' ∈ escapeLetters := by decide
  cases pace with
  | level | escaped => exact iff_of_true lenient_quote nofun
  | asIs => exact iff_of_true ((lenient_escape_as_is letter).trans lenient_quote) nofun
  | behind =>
    refine iff_of_false (fun same => ?_) (fun other => other rfl)
    have le := le_of_lenient_token ((lenient_escape letter).symm.trans same)
    exact Nat.not_succ_le_self _ le

/-- The end of a line is blamed unless it is the last character of the text. -/
theorem Pace.read_line_iff (pos : 0 < depth) (quote : c ≠ '"') (line : c ∈ lineTerminators) :
    (∃ n, pace.read depth (c :: t) = .token .string n (some ⟨.unterminated .string, depth⟩)) ↔
      (pace = .level ∨ pace = .escaped) ∧ t ≠ [] := by
  obtain ⟨depth, rfl⟩ := Nat.exists_eq_add_one.mpr pos
  have letter : c ∉ escapeLetters := fun letter => not_line_of_letter letter line
  have inStep (escaped : Bool) : (∃ n, lenient (depth + 1) escaped none (c :: t) =
      .token .string n (some ⟨.unterminated .string, depth + 1⟩)) ↔ t ≠ [] := by
    cases t with
    | nil =>
      refine iff_of_false ?_ (fun ne => ne rfl)
      rintro ⟨n, same⟩
      obtain ⟨m, last⟩ := lenient_last quote
      cases last.symm.trans same
    | cons d t =>
      have backslash : c ≠ '\\' := by
        rintro rfl
        exact absurd line (by decide)
      refine iff_of_true ?_ (List.cons_ne_nil d t)
      rw [lenient_as_is quote fun h => absurd h backslash, plainFlaw?, if_pos line]
      exact lenient_some _ _ _ _
  cases pace with
  | level => exact (inStep false).trans (by simp)
  | escaped => exact (inStep true).trans (by simp)
  | behind =>
    refine iff_of_false ?_ (by simp)
    rintro ⟨n, same⟩
    cases (lenient_badEscape letter).symm.trans same
  | asIs =>
    refine iff_of_false ?_ (by simp)
    rintro ⟨n, same⟩
    obtain ⟨m, noted⟩ := lenient_some (depth + 1) false ⟨.invalidEscape c, depth + 1⟩ (c :: t)
    cases ((lenient_badEscape_as_is letter).trans noted).symm.trans same

theorem Pace.read_badEscape_iff (pos : 0 < depth) (letter : e ∉ escapeLetters) :
    (∃ n, pace.read depth ('\\' :: e :: t) =
      .token .string n (some ⟨.invalidEscape e, depth + 1⟩)) ↔ pace ≠ .behind := by
  obtain ⟨depth, rfl⟩ := Nat.exists_eq_add_one.mpr pos
  have backslash : '\\' ∈ escapeLetters := by decide
  cases pace with
  | level => exact iff_of_true ⟨_, lenient_badEscape letter⟩ nofun
  | escaped =>
    obtain ⟨n, same⟩ := lenient_some (depth + 2) false ⟨.invalidEscape e, depth + 2⟩ (e :: t)
    exact iff_of_true ⟨n, (lenient_badEscape_as_is letter).trans same⟩ nofun
  | asIs =>
    exact iff_of_true ⟨_, (lenient_escape_as_is backslash).trans (lenient_badEscape letter)⟩ nofun
  | behind =>
    refine iff_of_false ?_ (fun other => other rfl)
    rintro ⟨n, same⟩
    have lt := lt_of_lenient_invalidEscape ((lenient_escape backslash).symm.trans same)
    exact Nat.lt_irrefl _ lt

/-! ## Keeping step -/

theorem keepsStep_quote : keepsStep pace ('"' :: t) = true ↔ pace ≠ .behind := by
  rw [keepsStep.eq_def]
  exact decide_eq_true_iff

theorem keepsStep_line (quote : c ≠ '"') (line : c ∈ lineTerminators) :
    keepsStep pace (c :: t) = true ↔ pace = .level ∨ pace = .escaped := by
  simp [keepsStep.eq_def, quote, line]

theorem keepsStep_plain (quote : c ≠ '"') (line : c ∉ lineTerminators) (backslash : c ≠ '\\') :
    keepsStep pace (c :: t) = true ↔
      ∃ next, pace.plain? c = some next ∧ keepsStep next t = true := by
  rw [keepsStep.eq_def]
  dsimp only
  rw [if_neg quote, if_neg line, if_neg backslash]
  cases pace.plain? c <;> simp

theorem keepsStep_escape (letter : e ∈ escapeLetters) : keepsStep pace ('\\' :: e :: t) = true ↔
    ∃ next, pace.escape? e = some next ∧ keepsStep next t = true := by
  rw [keepsStep, if_neg (by decide), if_neg (by decide), if_pos rfl, if_pos letter]
  cases pace.escape? e <;> simp

theorem keepsStep_badEscape (letter : e ∉ escapeLetters) :
    keepsStep pace ('\\' :: e :: t) = true ↔ pace ≠ .behind := by
  rw [keepsStep, if_neg (by decide), if_neg (by decide), if_pos rfl, if_neg letter,
    decide_eq_true_iff]

/-! ## Both modes -/

theorem le_of_strict_token {kind : Kind} {n : Nat} (h : strict depth t = .token kind n flaw) :
    depth ≤ n := by
  obtain ⟨items, _, _, _, rfl, _⟩ := strict_eq_token_iff.mp h
  exact Nat.le_add_right _ _

theorem Early.ne_token {s : Scan} {kind : Kind} {n : Nat} (early : Early depth s)
    (h : strict depth t = .token kind n flaw) : s ≠ .token kind n none := by
  obtain ⟨m, noted, rfl, short, _⟩ := early
  rintro ⟨⟩
  exact Nat.lt_irrefl _ (Nat.lt_of_lt_of_le (short rfl) (le_of_strict_token h))

theorem Early.not_notes {s : Scan} {f : Flaw} (early : Early depth s)
    (h : strict depth t = .refused f) : ¬ ∃ n, s = .token .string n (some f) := by
  obtain ⟨m, noted, rfl, _, before⟩ := early
  rintro ⟨n, ⟨⟩⟩
  exact Nat.lt_irrefl _ (Nat.lt_of_lt_of_le (before f rfl) (le_of_strict_refused h))

theorem Pace.read_eq_token_iff {kind : Kind} {n : Nat} (pace : Pace) (pos : 0 < depth)
    (h : strict depth t = .token kind n flaw) :
    pace.read depth t = .token kind n none ↔ keepsStep pace t = true := by
  fun_induction strict depth t generalizing pace with
  | case1 | case3 | case4 | case6 => cases h
  | case2 depth t =>
    cases h
    rw [keepsStep_quote, Pace.read_quote_iff pos]
  | case5 depth e t letter _ _ ih =>
    rw [keepsStep_escape letter]
    cases step : pace.escape? e with
    | none => simp [(Pace.early_escape pos step).ne_token h]
    | some next =>
      cases t with
      | nil => cases h
      | cons d t => simp [Pace.read_escape letter pos step, ih next (Nat.succ_pos _) h]
  | case7 depth c t quote line backslash ih =>
    rw [keepsStep_plain quote line backslash]
    cases step : pace.plain? c with
    | none => simp [(Pace.early_plain pos step).ne_token h]
    | some next =>
      cases t with
      | nil => cases h
      | cons d t => simp [Pace.read_plain quote line backslash pos step, ih next (Nat.succ_pos _) h]

theorem Pace.read_notes_iff {f : Flaw} (pace : Pace) (pos : 0 < depth)
    (h : strict depth t = .refused f) :
    (∃ n, pace.read depth t = .token .string n (some f)) ↔ keepsStep pace t = true ∧
      (f.cause = .unterminated .string → f.depth + 1 ≠ depth + t.length) := by
  fun_induction strict depth t generalizing pace with
  | case1 depth =>
    cases h
    exact iff_of_true (Pace.read_nil pos) ⟨rfl, fun _ => Nat.succ_ne_self _⟩
  | case2 => cases h
  | case3 depth c t quote line =>
    cases h
    rw [keepsStep_line quote line, Pace.read_line_iff pos quote line]
    simp
  | case4 depth =>
    cases h
    exact iff_of_true (Pace.read_backslash pos) ⟨rfl, fun _ => Nat.succ_ne_self _⟩
  | case5 depth e t letter _ _ ih =>
    rw [keepsStep_escape letter]
    cases step : pace.escape? e with
    | none => simp [(Pace.early_escape pos step).not_notes h]
    | some next =>
      cases t with
      | nil =>
        cases h
        exact iff_of_true (Pace.read_escape_last letter pos step)
          ⟨⟨next, rfl, rfl⟩, fun _ => Nat.succ_ne_self _⟩
      | cons d t =>
        rw [Pace.read_escape letter pos step, ih next (Nat.succ_pos _) h]
        simp [Nat.add_assoc, Nat.add_comm, Nat.add_left_comm]
  | case6 depth e t letter _ _ =>
    cases h
    rw [keepsStep_badEscape letter, Pace.read_badEscape_iff pos letter]
    refine (and_iff_left ?_).symm
    rintro ⟨⟩
  | case7 depth c t quote line backslash ih =>
    rw [keepsStep_plain quote line backslash]
    cases step : pace.plain? c with
    | none => simp [(Pace.early_plain pos step).not_notes h]
    | some next =>
      cases t with
      | nil =>
        cases h
        exact iff_of_true (Pace.read_plain_last quote pos step)
          ⟨⟨next, rfl, rfl⟩, fun _ => Nat.succ_ne_self _⟩
      | cons d t =>
        rw [Pace.read_plain quote line backslash pos step, ih next (Nat.succ_pos _) h]
        simp [Nat.add_comm, Nat.add_left_comm]

/-- Where strict reading gives out a token, lenient reading gives out the same just if it keeps
step. -/
theorem lenient_eq_token_iff {kind : Kind} {n : Nat} (h : strict 1 t = .token kind n flaw) :
    lenient 1 false none t = .token kind n none ↔ keepsStep .level t = true :=
  Pace.level.read_eq_token_iff Nat.one_pos h

/-- Where strict reading refuses, lenient reading notes the same flaw just if it keeps step and the
line end that leaves the literal unterminated is not the last character of the text. -/
theorem lenient_notes_iff {f : Flaw} (h : strict 1 t = .refused f) :
    (∃ n, lenient 1 false none t = .token .string n (some f)) ↔ keepsStep .level t = true ∧
      (f.cause = .unterminated .string → f.depth + 1 ≠ 1 + t.length) :=
  Pace.level.read_notes_iff Nat.one_pos h

/-- What stands behind a literal has no say in whether lenient reading keeps step with it. -/
theorem keepsStep_take {kind : Kind} {n : Nat} (h : strict depth t = .token kind n flaw) :
    keepsStep pace (t.take (n + 1 - depth)) = true ↔ keepsStep pace t = true := by
  fun_induction strict depth t generalizing pace with
  | case1 | case3 | case4 | case6 => cases h
  | case2 depth t =>
    cases h
    rw [Nat.add_sub_cancel_left, List.take_succ_cons, keepsStep_quote, keepsStep_quote]
  | case5 depth e t letter _ _ ih =>
    have le : depth + 2 ≤ n := le_of_strict_token h
    rw [show n + 1 - depth = n + 1 - (depth + 2) + 1 + 1 by omega, List.take_succ_cons,
      List.take_succ_cons, keepsStep_escape letter, keepsStep_escape letter]
    simp only [ih h]
  | case7 depth c t quote line backslash ih =>
    have le : depth + 1 ≤ n := le_of_strict_token h
    rw [show n + 1 - depth = n + 1 - (depth + 1) + 1 by omega, List.take_succ_cons,
      keepsStep_plain quote line backslash, keepsStep_plain quote line backslash]
    simp only [ih h]

end StringLiteral

namespace CharacterLiteral

variable {depth : Nat} {c d : Char} {t : Text}

theorem lenientClose_some (depth : Nat) (f : Flaw) (t : Text) :
    ∃ n, lenientClose depth (some f) t = .token .character n (some f) := by
  unfold lenientClose
  split <;> exact ⟨_, rfl⟩

/-- Before a literal ends, a plain character is taken if there is one. -/
theorem exists_lenientBody_eq (depth : Nat) (flaw : Option Flaw) (t : Text) :
    ∃ (plain : Option Char) (behind : Text), t = plain.toList ++ behind ∧
      (∀ c ∈ plain, c ∉ characterExcluded) ∧
      lenientBody depth flaw t = lenientClose (depth + plain.toList.length) flaw behind := by
  unfold lenientBody
  split
  · next c d t =>
    split
    · next allowed =>
      refine ⟨some c, d :: t, rfl, ?_, rfl⟩
      rintro _ ⟨⟩
      exact allowed
    · exact ⟨none, c :: d :: t, rfl, nofun, rfl⟩
  · exact ⟨none, _, rfl, nofun, rfl⟩

theorem lenientBody_some (depth : Nat) (f : Flaw) (t : Text) :
    ∃ n, lenientBody depth (some f) t = .token .character n (some f) := by
  obtain ⟨_, _, _, _, same⟩ := exists_lenientBody_eq depth (some f) t
  rw [same]
  exact lenientClose_some _ _ _

theorem lenientClose_of_refused {f : Flaw} (h : close depth t = .refused f) :
    ∃ n, lenientClose depth none t = .token .character n (some f) := by
  unfold close at h
  split at h
  · cases h
  · next no =>
    cases h
    unfold lenientClose
    split
    · next r => exact absurd rfl (no r)
    · exact ⟨_, rfl⟩

theorem lenient_plain (quote : c ≠ '\'') (control : c ∉ controlChars) (backslash : c ≠ '\\') :
    lenient (c :: d :: t) = lenientClose 2 none (d :: t) := by
  have plain : c ∉ characterExcluded := by
    intro mem
    have all : ∀ e ∈ characterExcluded, e = '\'' ∨ e = '\\' ∨ e ∈ controlChars :=
      forall_mem_of_all (by decide)
    rcases all c mem with eq | eq | eq
    · exact quote eq
    · exact backslash eq
    · exact control eq
  rw [lenient, if_neg backslash, if_neg control, lenientBody, if_pos plain]

theorem controls_of_line (line : c ∈ lineTerminators) : c ∈ controlChars := by
  have all : lineTerminators ⊆ controlChars := by decide
  exact all line

theorem lenient_control (control : c ∈ controlChars) :
    ∃ n, lenient (c :: d :: t) = .token .character n (some (controlFlaw c)) := by
  have backslash : c ≠ '\\' := by
    rintro rfl
    exact absurd control (by decide)
  rw [lenient, if_neg backslash, if_pos control]
  exact lenientBody_some _ _ _

/-- What strict reading gives out, lenient reading gives out too. -/
theorem lenient_of_strict_token {kind : Kind} {n : Nat} {flaw : Option Flaw}
    (h : strict t = .token kind n flaw) : lenient t = .token kind n none := by
  obtain ⟨item, standing, ⟨r, rfl⟩, rfl, rfl, rfl⟩ := strict_eq_token_iff.mp h
  cases standing with
  | @plain c plain =>
    have control : c ∉ controlChars := by
      have all : controlChars ⊆ ['\'', '\\', '\n', '\r', '\t', '\x08', '\x0c'] := by decide
      exact fun mem => plain (all mem)
    simp only [List.mem_cons, List.not_mem_nil, or_false, not_or] at plain
    exact lenient_plain plain.1 control plain.2.1
  | escape letter =>
    rw [show ['\\', _] ++ ['\''] ++ r = '\\' :: _ :: '\'' :: r from rfl, lenient, if_pos rfl,
      if_pos (mem_escapeLetters_iff.mpr letter)]
    rfl

theorem lenient_of_strict_refused {f : Flaw} (h : strict t = .refused f) (ne : t ≠ [])
    (seen : f.depth = 1 → t.length ≠ 1) : ∃ n, lenient t = .token .character n (some f) := by
  have behind {c : Char} {u : Text} : f.depth = 1 → t = c :: u → ∃ d v, u = d :: v := by
    rintro first rfl
    refine List.exists_cons_of_ne_nil ?_
    rintro rfl
    exact seen first rfl
  cases t with
  | nil => exact absurd rfl ne
  | cons c t =>
    dsimp only [strict] at h
    split at h
    · next quote =>
      cases h
      obtain ⟨d, t, rfl⟩ := behind rfl rfl
      exact ⟨_, by rw [quote]; rfl⟩
    split at h
    · next line =>
      cases h
      obtain ⟨d, t, rfl⟩ := behind rfl rfl
      obtain ⟨n, scan⟩ := lenient_control (d := d) (t := t) (controls_of_line line)
      exact ⟨n, by rw [scan, controlFlaw, if_pos line]⟩
    split at h
    · next line control =>
      cases h
      obtain ⟨d, t, rfl⟩ := behind rfl rfl
      obtain ⟨n, scan⟩ := lenient_control (d := d) (t := t) control
      exact ⟨n, by rw [scan, controlFlaw, if_neg line]⟩
    split at h
    · next backslash =>
      split at h
      · cases h
        exact ⟨_, rfl⟩
      · next d t =>
        rw [lenient, if_pos backslash]
        split at h
        · next letter =>
          rw [if_pos letter]
          exact lenientClose_of_refused h
        · next letter =>
          cases h
          rw [if_neg letter]
          exact ⟨_, rfl⟩
    · next quote line control backslash =>
      cases t with
      | nil =>
        cases h
        exact ⟨_, rfl⟩
      | cons d t =>
        rw [lenient_plain quote control backslash]
        exact lenientClose_of_refused h

/-- Where strict reading refuses, with something behind the opening quote, lenient reading notes the
same flaw just if the character right behind the quote is not both the one to be blamed and the last
of the text. -/
theorem lenient_notes_iff {f : Flaw} (h : strict t = .refused f) (ne : t ≠ []) :
    (∃ n, lenient t = .token .character n (some f)) ↔ (f.depth = 1 → t.length ≠ 1) := by
  refine ⟨?_, lenient_of_strict_refused h ne⟩
  rintro ⟨n, noted⟩ first length
  obtain ⟨c, rfl⟩ := List.length_eq_one_iff.mp length
  cases noted
  cases first

end CharacterLiteral

end Lexis
