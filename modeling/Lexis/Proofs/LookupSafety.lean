import Lexis.Proofs.Lookup
import Lexis.Proofs.Agreement

/-!
# No lookup falls outside the text

Each rule, followed by lookup, gives what the scan of the text ahead says (`outcome`), and a scan
never says that a lookup fell outside. The proofs go along the characters of the text ahead, since
these decide how the tests for its end come out (`Left`).

Results:
1. `scan_eq`: with a character at the cursor, the rule that applies gives what the scan says.
   `scan_nil`: the character is needed, for at the end of the text the first lookup falls outside.
2. `step?_next`: the test for the end of the text that stands before each token is enough.
3. `run_eq`: the tokens of a text, read by lookup, are the run over the text.
-/

namespace Lexis.Lookup

open Alphabet

/-! ## Lookups at a known text -/

section Known

variable {α β : Type} {c : Cursor} {t : Text} {x : Char} {n depth : Nat}

theorem ok_bind (a : α) (f : α → Attempt β) : ((.ok a : Attempt α) >>= f) = f a := rfl

theorem pure_eq_ok (a : α) : (pure a : Attempt α) = .ok a := rfl

theorem peek?_eq (c : Cursor) (n : Nat) : c.peek? n = c.ahead[n]? := by
  have place : ((c.index : Int) + n).toNat = (c.passed.reverse ++ c.pending).length + n := by
    simp only [Cursor.index, c.start_eq, List.length_append, List.length_reverse]
    omega
  have inside : ¬ (c.index : Int) + n < 0 := by omega
  simp only [Cursor.peek?, if_neg inside, place, Cursor.source]
  rw [← List.append_assoc, List.getElem?_append_right (Nat.le_add_right _ _),
    Nat.add_sub_cancel_left]

theorem look_eq : look c n = (c.ahead[n]?).elim (.error .outside) .ok := by
  rw [look, peek?_eq]
  cases c.ahead[n]? <;> rfl

theorem there_eq : there c n = decide (n < c.ahead.length) := by
  rw [Bool.eq_iff_iff, there_iff, decide_eq_true_iff]

theorem sees_drop (c : Cursor) (n : Nat) (sets : List Text) :
    sees c n sets = .ok (Lexer.sees sets (c.ahead.drop n)) := by
  induction sets generalizing n with
  | nil => simp [sees, Lexer.sees, pure_eq_ok]
  | cons set sets ih =>
    rw [sees, there_eq, look_eq, ih]
    by_cases inside : n < c.ahead.length
    · rw [List.drop_eq_getElem_cons inside, List.getElem?_eq_getElem inside]
      by_cases mem : c.ahead[n] ∈ set <;>
        simp [inside, mem, Lexer.sees, pure_eq_ok, ok_bind]
    · rw [List.drop_eq_nil_of_le (Nat.le_of_not_lt inside)]
      simp [inside, Lexer.sees, pure_eq_ok]

theorem sees_eq (c : Cursor) (sets : List Text) : sees c 0 sets = .ok (Lexer.sees sets c.ahead) :=
  sees_drop c 0 sets

theorem readWhile_eq (set : Text) (c : Cursor) :
    readWhile set c = .ok (c.advance (c.ahead.takeWhile (· ∈ set)).length) := by
  induction ahead : c.ahead generalizing c with
  | nil =>
    rw [readWhile, there_eq, look_eq]
    simp [ahead, pure_eq_ok]
  | cons x t ih =>
    rw [readWhile, there_eq, look_eq]
    by_cases mem : x ∈ set
    · simp [ahead, mem, ok_bind, ih, Nat.add_comm]
    · simp [ahead, mem, ok_bind, pure_eq_ok]

end Known

/-! ## What a scan amounts to -/

/-- What a scan amounts to at the cursor that stands before its token. -/
def outcome (c : Cursor) : Scan → Attempt Step
  | .token kind further flaw =>
    .ok (give kind (flaw.map (Flaw.place c.index)) (c.advance (further + 1)))
  | .refused flaw => .error (.refused (flaw.place c.index) (c.advance flaw.depth))

/-- From the cursor on, `depth` characters have been read, and `t` is what is left. -/
structure Left (c : Cursor) (depth : Nat) (t : Text) : Prop where
  ahead : c.ahead.drop depth = t
  le : depth ≤ c.ahead.length

namespace Left

variable {c : Cursor} {t : Text} {x : Char} {depth : Nat}

theorem zero (c : Cursor) : Left c 0 c.ahead := ⟨rfl, Nat.zero_le _⟩

theorem next (h : Left c depth (x :: t)) : Left c (depth + 1) t := by
  have length := congrArg List.length h.ahead
  rw [List.length_drop, List.length_cons] at length
  refine ⟨?_, by omega⟩
  rw [← List.tail_drop, h.ahead, List.tail_cons]

theorem ahead_advance (h : Left c depth t) : (c.advance depth).ahead = t := h.ahead

theorem index_advance (h : Left c depth t) : (c.advance depth).index = c.index + depth := by
  rw [Cursor.index_advance, Nat.min_eq_left h.le]

theorem length_source (h : Left c depth t) : c.source.length = c.index + depth + t.length := by
  have length := congrArg List.length h.ahead
  have le := h.le
  rw [List.length_drop] at length
  rw [Cursor.length_source]
  omega

end Left

variable {c : Cursor} {t : Text} {x : Char} {depth : Nat} {mode : Mode}

/-! ## Identifiers, numbers and operators -/

theorem identifier_eq (h : c.ahead = x :: t) :
    identifier c = outcome c (.token .identifier (Scan.identifierTail t) none) := by
  rw [identifier, readWhile_eq, Cursor.ahead_advance, h]
  simp [ok_bind, pure_eq_ok, outcome, Scan.identifierTail, Nat.add_comm]

theorem operator_eq (h : c.ahead = x :: t) :
    operator c = outcome c (.token .operator (Scan.operatorTail x t) none) := by
  rw [operator, look_eq, h, List.getElem?_cons_zero, Option.elim_some, ok_bind]
  unfold Scan.operatorTail
  cases operatorPairs.lookup x with
  | none => simp [outcome, pure_eq_ok]
  | some pair =>
    have seen : Lexer.sees [[pair]] (c.advance 1).ahead = decide (t.head? = some pair) := by
      rw [Cursor.ahead_advance, h]
      cases t <;> simp [Lexer.sees]
    simp only [sees_eq, ok_bind, seen, pure_eq_ok, outcome]
    by_cases head : t.head? = some pair <;> simp [head]

theorem pointAlone_eq {d : Char} (h : c.ahead = x :: d :: t) :
    pointAlone mode c = .ok (decide (mode = .strict ∧ d ∉ digits)) := by
  rw [pointAlone, look_eq, h, List.getElem?_cons_succ, List.getElem?_cons_zero, Option.elim_some]
  cases mode <;> simp [ok_bind, pure_eq_ok]

theorem fraction_eq (mode : Mode) (c : Cursor) :
    fraction mode c = .ok (match Numeral.fraction? mode c.ahead with
      | some n => give .decimal none (c.advance n)
      | none => give .integer none c) := by
  rw [fraction, sees_eq, there_eq, ok_bind]
  match ahead : c.ahead with
  | [] => rfl
  | [y] => simp [Numeral.fraction?, pure_eq_ok]
  | y :: d :: t =>
    by_cases point : y = '.'
    · subst point
      rw [if_pos (by simp [Lexer.sees]), pointAlone_eq ahead, ok_bind, readWhile_eq,
        Cursor.ahead_advance, ahead, List.drop_succ_cons, List.drop_zero, Cursor.advance_advance,
        ok_bind, Numeral.fraction?]
      by_cases alone : mode = .strict ∧ d ∉ digits
      · rw [if_pos (decide_eq_true alone), if_pos alone]
        rfl
      · rw [if_neg (by simpa using alone), if_neg alone]
        rfl
    · simp [Lexer.sees, Numeral.fraction?, pure_eq_ok, point]

theorem number_eq (h : c.ahead = x :: t) (first : x ∈ digits ∨ x = '-') :
    number mode c =
      outcome c (.token (Numeral.tail mode t).1 (Numeral.tail mode t).2 none) := by
  -- the sign is read by itself and a digit with those behind it, to the same place
  have whole : readWhile digits (if Lexer.sees [['-']] c.ahead then c.advance 1 else c) =
      .ok (c.advance (Numeral.digitRun t + 1)) := by
    rw [readWhile_eq]
    rcases first with digit | rfl
    · have sign : x ≠ '-' := by
        rintro rfl
        exact absurd digit (by decide)
      simp [h, Lexer.sees, sign, digit, Numeral.digitRun]
    · simp [h, Lexer.sees, Numeral.digitRun, Nat.add_comm]
  rw [number, sees_eq, ok_bind, whole, ok_bind, fraction_eq, Cursor.ahead_advance, h,
    List.drop_succ_cons, Numeral.tail]
  cases Numeral.fraction? mode (t.drop (Numeral.digitRun t)) with
  | none => rfl
  | some n => simp only [outcome, Cursor.advance_advance, Nat.add_right_comm, Option.map_none]

/-! ## Literals in strict reading -/

theorem refuse_eq {α : Type} (h : Left c depth t) (cause : Cause) :
    (refuse cause c.index (c.advance depth) : Attempt α) =
      .error (.refused (Flaw.place c.index ⟨cause, depth⟩) (c.advance depth)) := by
  rw [refuse, h.index_advance]
  rfl

theorem refuseAtEnd_eq {α : Type} (h : Left c depth []) (literal : Literal) :
    (refuseAtEnd literal c.index (c.advance depth) : Attempt α) =
      .error (.refused (Flaw.place c.index ⟨.unterminated literal, depth⟩) (c.advance depth)) := by
  rw [refuseAtEnd, Cursor.source_advance, h.length_source]
  rfl

theorem close_eq (h : Left c depth t) :
    close c.index (c.advance depth) = outcome c (CharacterLiteral.close depth t) := by
  rw [close, there_eq, sees_eq, h.ahead_advance]
  cases t with
  | nil => simp [refuseAtEnd_eq h, CharacterLiteral.close, outcome]
  | cons x t =>
    by_cases quote : x = '\''
    · simp [quote, Lexer.sees, CharacterLiteral.close, outcome, ok_bind, pure_eq_ok]
    · simp [quote, Lexer.sees, CharacterLiteral.close, outcome, ok_bind, refuse_eq h]

theorem checkEscape_eq (h : Left c depth ('\\' :: t)) (literal : Literal) :
    checkEscape literal c.index (c.advance depth) =
      match t with
      | [] => .error (.refused (Flaw.place c.index ⟨.unterminated literal, depth + 1⟩)
          (c.advance (depth + 1)))
      | e :: _ =>
        if e ∈ escapeLetters then .ok ()
        else .error (.refused (Flaw.place c.index ⟨.invalidEscape e, depth + 1⟩)
          (c.advance (depth + 1))) := by
  have next := h.next
  simp only [checkEscape, Cursor.advance_advance, there_eq, sees_eq, look_eq, next.ahead_advance]
  cases t with
  | nil => simp [refuseAtEnd_eq next]
  | cons e t =>
    by_cases letter : e ∈ escapeLetters
    · simp [letter, Lexer.sees, ok_bind, pure_eq_ok]
    · simp [letter, Lexer.sees, ok_bind, refuse_eq next]

theorem characterStrict_eq (h : Left c 1 t) :
    characterStrict c.index (c.advance 1) = outcome c (CharacterLiteral.strict t) := by
  rw [characterStrict, there_eq, look_eq, h.ahead_advance]
  cases t with
  | nil => simp [refuseAtEnd_eq h, CharacterLiteral.strict, outcome]
  | cons x t =>
    simp only [List.length_cons, Nat.zero_lt_succ, decide_true, if_true, List.getElem?_cons_zero,
      Option.elim_some, ok_bind, CharacterLiteral.strict, refuse_eq h]
    split
    · rfl
    split
    · rfl
    split
    · rfl
    split
    · next backslash =>
      subst backslash
      rw [checkEscape_eq h]
      cases t with
      | nil => rfl
      | cons e t =>
        dsimp only
        split
        · rw [ok_bind, Cursor.advance_advance]
          exact close_eq h.next.next
        · rfl
    · rw [Cursor.advance_advance]
      exact close_eq h.next

theorem stringStrict_cons (h : Left c depth (x :: t)) :
    stringStrict c.index (c.advance depth) =
      if x = '"' then .ok (give .string none (c.advance (depth + 1)))
      else if x ∈ lineTerminators then
        .error (.refused (Flaw.place c.index ⟨.unterminated .string, depth⟩) (c.advance depth))
      else if x = '\\' then
        (checkEscape .string c.index (c.advance depth) >>= fun _ =>
          stringStrict c.index (c.advance (depth + 2)))
      else stringStrict c.index (c.advance (depth + 1)) := by
  rw [stringStrict, there_eq, look_eq, h.ahead_advance]
  simp only [List.length_cons, Nat.zero_lt_succ, decide_true, dif_pos, List.getElem?_cons_zero,
    Option.elim_some, ok_bind, pure_eq_ok, refuse_eq h, Cursor.advance_advance]

theorem stringStrict_eq (h : Left c depth t) :
    stringStrict c.index (c.advance depth) = outcome c (StringLiteral.strict depth t) := by
  fun_induction StringLiteral.strict depth t with
  | case1 =>
    rw [stringStrict, there_eq, h.ahead_advance]
    simp [refuseAtEnd_eq h, outcome]
  | case2 =>
    rw [stringStrict_cons h, if_pos rfl]
    rfl
  | case3 depth c t quote line =>
    rw [stringStrict_cons h, if_neg quote, if_pos line]
    rfl
  | case4 =>
    rw [stringStrict_cons h, if_neg (by decide), if_neg (by decide), if_pos rfl, checkEscape_eq h]
    rfl
  | case5 depth e t letter _ _ ih =>
    rw [stringStrict_cons h, if_neg (by decide), if_neg (by decide), if_pos rfl, checkEscape_eq h]
    simp only [if_pos letter, ok_bind]
    exact ih h.next.next
  | case6 depth e t letter =>
    rw [stringStrict_cons h, if_neg (by decide), if_neg (by decide), if_pos rfl, checkEscape_eq h]
    simp only [if_neg letter]
    rfl
  | case7 depth x t quote line backslash ih =>
    rw [stringStrict_cons h, if_neg quote, if_neg line, if_neg backslash]
    exact ih h.next

/-! ## Literals in lenient reading -/

theorem place_or (start : Nat) (flaw other : Option Flaw) :
    (flaw.map (Flaw.place start)).or (other.map (Flaw.place start)) =
      (flaw.or other).map (Flaw.place start) := by
  cases flaw <;> rfl

theorem lenientClose_of_ne (quote : x ≠ '\'') (depth : Nat) (flaw : Option Flaw) :
    CharacterLiteral.lenientClose depth flaw (x :: t) =
      .token .character (depth - 1) (flaw.or (some ⟨.unterminated .character, depth⟩)) := by
  simp [CharacterLiteral.lenientClose, quote]

theorem closeLenient_eq (h : Left c (depth + 1) t) (flaw : Option Flaw) :
    closeLenient c.index (c.index + 1) (flaw.map (Flaw.place c.index)) (c.advance (depth + 1)) =
      outcome c (CharacterLiteral.lenientClose (depth + 1) flaw t) := by
  rw [closeLenient, sees_eq, there_eq, h.ahead_advance, h.index_advance, ok_bind]
  have empty : (if c.index + (depth + 1) = c.index + 1 then
      some (⟨.emptyCharacter, c.index, c.index + (depth + 1)⟩ : Fault) else none) =
      (if depth + 1 = 1 then some (⟨.emptyCharacter, 1⟩ : Flaw) else none).map
        (Flaw.place c.index) := by
    by_cases first : depth = 0 <;> simp [first, Flaw.place]
  have offset : (if decide (0 < t.length) = true then c.index + (depth + 1)
      else (c.advance (depth + 1)).source.length) = c.index + (depth + 1) := by
    cases t with
    | nil => simp [h.length_source]
    | cons x t => simp
  rw [empty, offset]
  have open' : .ok (give .character ((flaw.map (Flaw.place c.index)).or
      (some ⟨.unterminated .character, c.index, c.index + (depth + 1)⟩)) (c.advance (depth + 1))) =
      outcome c (.token .character depth (flaw.or (some ⟨.unterminated .character, depth + 1⟩))) := by
    cases flaw <;> rfl
  cases t with
  | nil => exact open'
  | cons x t =>
    by_cases quote : x = '\''
    · subst quote
      simp only [Lexer.sees, List.mem_cons, true_or, decide_true, Bool.and_self, if_true, place_or,
        Cursor.advance_advance]
      rfl
    · rw [lenientClose_of_ne quote, Nat.add_sub_cancel, ← open',
        if_neg (by simpa [Lexer.sees] using quote)]
      rfl

theorem plainLenient_eq (h : Left c (depth + 1) t) (flaw : Option Flaw) :
    plainLenient c.index (c.index + 1) (flaw.map (Flaw.place c.index)) (c.advance (depth + 1)) =
      outcome c (CharacterLiteral.lenientBody (depth + 1) flaw t) := by
  rw [plainLenient, there_eq, look_eq, h.ahead_advance]
  match t with
  | [] => exact closeLenient_eq h flaw
  | [x] => exact closeLenient_eq h flaw
  | x :: y :: t =>
    rw [if_pos (by simp), List.getElem?_cons_zero, Option.elim_some, ok_bind,
      CharacterLiteral.lenientBody, Cursor.advance_advance]
    split
    · exact closeLenient_eq h.next flaw
    · exact closeLenient_eq h flaw

/-- Whether or not the letter makes an escape, the quote that closes the literal is looked for. A
letter that makes none is no quote. -/
theorem escapedLenient_eq {e : Char} (h : Left c 1 ('\\' :: e :: t)) :
    escapedLenient c.index (c.advance 1) = outcome c
      (if e ∈ escapeLetters then CharacterLiteral.lenientClose 3 none t
        else .token .character 1 (some ⟨.invalidEscape e, 2⟩)) := by
  simp only [escapedLenient, sees_eq, look_eq, ok_bind, Cursor.advance_advance,
    h.next.ahead_advance, h.next.index_advance, List.getElem?_cons_zero, Option.elim_some]
  by_cases letter : e ∈ escapeLetters
  · rw [if_pos letter, if_pos (by simpa [Lexer.sees] using letter), h.next.next.ahead_advance,
      h.next.next.index_advance]
    cases t with
    | nil => rfl
    | cons x t =>
      by_cases quote : x = '\''
      · subst quote
        rfl
      · rw [lenientClose_of_ne quote, if_neg (by simpa [Lexer.sees] using quote)]
        rfl
  · have quote : e ≠ '\'' := by
      rintro rfl
      exact letter (by decide)
    rw [if_neg letter, if_neg (by simpa [Lexer.sees] using letter),
      if_neg (by simpa [Lexer.sees] using quote)]
    rfl

theorem controlFlaw_eq (h : Left c 1 (x :: t)) : controlFlaw c.index (c.advance 1) =
    .ok (Flaw.place c.index (CharacterLiteral.controlFlaw x)) := by
  rw [controlFlaw, look_eq, h.ahead_advance, List.getElem?_cons_zero, Option.elim_some, ok_bind,
    CharacterLiteral.controlFlaw, h.index_advance]
  split <;> rfl

theorem characterLenient_eq (h : Left c 1 t) :
    characterLenient c.index (c.advance 1) = outcome c (CharacterLiteral.lenient t) := by
  rw [characterLenient, there_eq, sees_eq, sees_eq, h.ahead_advance]
  match t with
  | [] | [x] =>
    rw [if_neg (by simp), Cursor.source_advance, h.length_source]
    rfl
  | x :: y :: t =>
    rw [if_pos (by simp), CharacterLiteral.lenient, ok_bind, ok_bind, Cursor.advance_advance,
      h.index_advance]
    by_cases backslash : x = '\\'
    · subst backslash
      exact escapedLenient_eq h
    rw [if_neg (by simpa [Lexer.sees] using backslash), if_neg backslash]
    by_cases control : x ∈ controlChars
    · rw [if_pos (by simpa [Lexer.sees] using control), if_pos control, controlFlaw_eq h, ok_bind]
      exact plainLenient_eq h.next (some (CharacterLiteral.controlFlaw x))
    · rw [if_neg (by simpa [Lexer.sees] using control), if_neg control]
      exact plainLenient_eq h none

theorem asIsFlaw_eq {d : Char} (h : Left c depth (x :: d :: t)) :
    asIsFlaw c.index (c.advance depth) =
      .ok ((StringLiteral.plainFlaw? depth x d).map (Flaw.place c.index)) := by
  rw [asIsFlaw, look_eq, look_eq, h.ahead_advance, h.index_advance, List.getElem?_cons_zero,
    List.getElem?_cons_succ, List.getElem?_cons_zero, Option.elim_some, Option.elim_some, ok_bind,
    StringLiteral.plainFlaw?]
  simp only [ok_bind]
  split
  · rfl
  · by_cases backslash : x = '\\' <;> by_cases letter : d ∈ escapeLetters <;>
      simp [backslash, letter, pure_eq_ok, Flaw.place, Nat.add_assoc]

/-- Only where a backslash is to be read as one does it matter what stands before it. -/
theorem stringLenient_eq_asIs {escaped : Bool} (h : Left c depth (x :: t))
    (asIs : ¬ (x = '\\' ∧ ¬ escaped = true)) (flaw : Option Fault) :
    (if escaped then stringAsIs else stringLenient) c.index flaw (c.advance depth) =
      stringAsIs c.index flaw (c.advance depth) := by
  cases escaped with
  | true => rfl
  | false =>
    have backslash : x ≠ '\\' := by simpa using asIs
    rw [if_neg Bool.false_ne_true, stringLenient, there_eq, sees_eq, h.ahead_advance]
    simp [Lexer.sees, backslash, ok_bind]

theorem stringAsIs_quote (h : Left c depth ('"' :: t)) (flaw : Option Flaw) :
    stringAsIs c.index (flaw.map (Flaw.place c.index)) (c.advance depth) =
      outcome c (.token .string depth flaw) := by
  rw [stringAsIs, sees_eq, h.ahead_advance]
  simp [Lexer.sees, ok_bind, pure_eq_ok, outcome]

theorem stringAsIs_cons {d : Char} (h : Left c depth (x :: d :: t)) (quote : x ≠ '"')
    (flaw : Option Flaw) :
    stringAsIs c.index (flaw.map (Flaw.place c.index)) (c.advance depth) =
      stringLenient c.index
        ((flaw.or (StringLiteral.plainFlaw? depth x d)).map (Flaw.place c.index))
        (c.advance (depth + 1)) := by
  rw [stringAsIs, sees_eq, there_eq, h.ahead_advance, asIsFlaw_eq h]
  cases flaw <;> simp [Lexer.sees, quote, ok_bind, pure_eq_ok, firstFlaw]

/-- The last character of the text is not taken into a string. -/
theorem give_unclosed (h : Left c (depth + 1) t) (flaw : Option Flaw) :
    .ok (give .string ((flaw.map (Flaw.place c.index)).or
        (some ⟨.unterminated .string, c.index, (c.advance (depth + 1)).source.length⟩))
        (c.advance (depth + 1))) =
      outcome c (.token .string depth
        (flaw.or (some ⟨.unterminated .string, depth + 1 + t.length⟩))) := by
  rw [Cursor.source_advance, h.length_source, Nat.add_assoc c.index]
  cases flaw <;> rfl

theorem stringAsIs_last (h : Left c (depth + 1) [x]) (quote : x ≠ '"') (flaw : Option Flaw) :
    stringAsIs c.index (flaw.map (Flaw.place c.index)) (c.advance (depth + 1)) =
      outcome c (.token .string depth (flaw.or (some ⟨.unterminated .string, depth + 2⟩))) := by
  have ends := give_unclosed h flaw
  rw [stringAsIs, sees_eq, there_eq, h.ahead_advance, ok_bind]
  simpa [Lexer.sees, quote, pure_eq_ok] using ends

theorem stringLenient_backslash (h : Left c depth ('\\' :: t)) (flaw : Option Fault) :
    stringLenient c.index flaw (c.advance depth) =
      if Lexer.sees [escapeLetters] t then stringAsIs c.index flaw (c.advance (depth + 2))
      else firstFlaw flaw (escapeFlaw c.index (c.advance (depth + 1))) >>= fun flaw =>
        .ok (give .string flaw (c.advance (depth + 1))) := by
  rw [stringLenient, there_eq, sees_eq, h.ahead_advance]
  simp only [sees_eq, ok_bind, Cursor.advance_advance, h.next.ahead_advance]
  rfl

theorem escapeFlaw_eq (h : Left c depth t) :
    escapeFlaw c.index (c.advance depth) = .ok (some
      (Flaw.place c.index ⟨t.head?.elim (.unterminated .string) .invalidEscape, depth⟩)) := by
  rw [escapeFlaw, there_eq, look_eq, h.ahead_advance, h.index_advance, Cursor.source_advance,
    h.length_source]
  cases t <;> rfl

/-- A backslash that makes no escape ends the string. -/
theorem stringLenient_noEscape (h : Left c depth ('\\' :: t))
    (noEscape : Lexer.sees [escapeLetters] t = false) (flaw : Option Flaw) :
    stringLenient c.index (flaw.map (Flaw.place c.index)) (c.advance depth) =
      outcome c (.token .string depth (flaw.or
        (some ⟨t.head?.elim (.unterminated .string) .invalidEscape, depth + 1⟩))) := by
  rw [stringLenient_backslash h, noEscape, if_neg Bool.false_ne_true, escapeFlaw_eq h.next]
  cases flaw <;> rfl

theorem stringLenient_eq (h : Left c (depth + 1) t) (escaped : Bool) (flaw : Option Flaw) :
    (if escaped then stringAsIs else stringLenient)
        c.index (flaw.map (Flaw.place c.index)) (c.advance (depth + 1)) =
      outcome c (StringLiteral.lenient (depth + 1) escaped flaw t) := by
  generalize read : depth + 1 = n at h
  fun_induction StringLiteral.lenient n escaped flaw t generalizing depth with
  | case1 n escaped flaw =>
    subst read
    have ends := give_unclosed h flaw
    cases escaped with
    | true =>
      rw [if_pos rfl, stringAsIs, sees_eq, there_eq, h.ahead_advance, ok_bind]
      exact ends
    | false =>
      rw [if_neg Bool.false_ne_true, stringLenient, there_eq, h.ahead_advance]
      exact ends
  | case2 | case4 =>
    rw [stringLenient_eq_asIs h (fun escape => absurd escape.1 (by decide))]
    exact stringAsIs_quote h _
  | case3 n escaped flaw x quote =>
    subst read
    by_cases escape : x = '\\' ∧ ¬ escaped = true
    · rw [if_pos escape]
      obtain ⟨rfl, notEscaped⟩ := escape
      rw [if_neg notEscaped]
      exact stringLenient_noEscape h rfl flaw
    · rw [stringLenient_eq_asIs h escape, if_neg escape]
      exact stringAsIs_last h quote flaw
  | case5 n escaped flaw x d t quote escape letter ih =>
    subst read
    obtain ⟨rfl, notEscaped⟩ := escape
    rw [if_neg notEscaped, stringLenient_backslash h, if_pos (by simp [Lexer.sees, letter])]
    exact ih rfl h.next.next
  | case6 n escaped flaw x d t quote escape letter =>
    subst read
    obtain ⟨rfl, notEscaped⟩ := escape
    rw [if_neg notEscaped]
    exact stringLenient_noEscape h (by simp [Lexer.sees, letter]) flaw
  | case7 n escaped flaw x d t quote asIs ih =>
    subst read
    rw [stringLenient_eq_asIs h asIs, stringAsIs_cons h quote]
    exact ih rfl h.next

/-! ## The rule that applies -/

theorem character_eq (h : Left c 1 t) :
    character mode c = outcome c (CharacterLiteral.scan mode t) := by
  cases mode with
  | strict => exact characterStrict_eq h
  | lenient => exact characterLenient_eq h

theorem string_eq (h : Left c 1 t) : string mode c = outcome c (StringLiteral.scan mode t) := by
  cases mode with
  | strict => exact stringStrict_eq h
  | lenient => exact stringLenient_eq h false none

theorem startsNumber_eq (h : c.ahead = x :: t) :
    startsNumber mode c = .ok (Scan.startsNumber mode x t) := by
  simp only [startsNumber, sees_eq, h, ok_bind, pure_eq_ok, Except.ok.injEq]
  cases t <;> cases mode <;> grind [Lexer.sees, Scan.startsNumber]

/-- A zero that no point follows is a number by itself; else the number is read on. -/
theorem zero_or_number_eq (h : c.ahead = x :: t) (first : x ∈ digits ∨ x = '-') :
    (if Lexer.sees [['0'], ['.']] (x :: t) then number mode c
      else if Lexer.sees [['0']] (x :: t) && there c 1 then .ok (give .integer none (c.advance 1))
      else number mode c) = outcome c (Numeral.scan mode x t) := by
  rw [number_eq h first, there_eq, h, Numeral.scan]
  by_cases zero : x = '0'
  · cases t with
    | nil => simp [Lexer.sees, zero, Numeral.tail, Numeral.fraction?, Numeral.digitRun]
    | cons y t =>
      by_cases point : y = '.' <;> simp [Lexer.sees, zero, point, outcome]
  · cases t <;> simp [Lexer.sees, zero]

/-- Followed by lookup, a rule that has a character to begin with gives what the scan says. -/
theorem scan_eq (h : c.ahead = x :: t) : scan mode c = outcome c (Scan.ofText mode x t) := by
  have one : Left c 1 t := by
    have start := Left.zero c
    rw [h] at start
    exact start.next
  simp only [scan, sees_eq, ok_bind, startsNumber_eq h, h, Scan.ofText]
  by_cases ident : x ∈ identStart
  · rw [if_pos ident, if_pos (by simp [Lexer.sees, ident])]
    exact identifier_eq h
  rw [if_neg ident, if_neg (by simp [Lexer.sees, ident])]
  by_cases numeric : Scan.startsNumber mode x t = true
  · have first : x ∈ digits ∨ x = '-' := by
      simp only [Scan.startsNumber, Bool.or_eq_true, Bool.and_eq_true, decide_eq_true_eq] at numeric
      exact numeric.imp_right And.left
    rw [if_pos numeric, if_pos numeric]
    exact zero_or_number_eq h first
  rw [if_neg numeric, if_neg numeric]
  have literal : (Lexer.sees [['\'']] (x :: t) && (decide (mode = .strict) || there c 1)) = true ↔
      x = '\'' ∧ (mode = .strict ∨ t ≠ []) := by
    rw [there_eq, h]
    cases t <;> simp [Lexer.sees]
  by_cases quote : x = '\'' ∧ (mode = .strict ∨ t ≠ [])
  · rw [if_pos quote, if_pos (literal.mpr quote)]
    exact character_eq one
  rw [if_neg quote, if_neg (literal.not.mpr quote)]
  by_cases double : x = '"'
  · rw [if_pos double, if_pos (by simp [Lexer.sees, double])]
    exact string_eq one
  rw [if_neg double, if_neg (by simp [Lexer.sees, double])]
  rw [look_eq, h, List.getElem?_cons_zero, Option.elim_some, ok_bind]
  by_cases space : x = ' '
  · subst space
    have refused := refuse_eq (α := Step) (Left.zero c) (.noToken ' ')
    rw [Cursor.advance_zero] at refused
    rw [if_pos rfl, if_neg (by decide), ok_bind, refused, outcome, Cursor.advance_zero]
  · have digit : x ∉ digits := by
      intro digit
      simp [Scan.startsNumber, digit] at numeric
    have other : x ∉ alphanumeric := by
      rw [alphanumeric, List.mem_append, not_or]
      exact ⟨digit, fun letter => ident (List.mem_cons_of_mem _ letter)⟩
    rw [if_neg space, if_pos (by simp [other, space])]
    exact operator_eq h

/-- At the end of the text there is nothing to begin with, and the first lookup falls outside. -/
theorem scan_nil (h : c.ahead = []) : scan mode c = .error .outside := by
  have noNumber : startsNumber mode c = .ok false := by
    simp [startsNumber, sees_eq, h, ok_bind, pure_eq_ok, Lexer.sees]
  have outside : look c 0 = .error .outside := by
    rw [look_eq, h]
    rfl
  simp only [scan, sees_eq, h, Lexer.sees, ok_bind, noNumber, outside]
  rfl

/-! ## Whole texts -/

/-- The step that comes of an attempt, unless a lookup fell outside. -/
def step? : Attempt Step → Option Step
  | .ok step => some step
  | .error (.refused fault d) => some (.refused fault d)
  | .error .outside => none

theorem step?_scan (mode : Mode) (c : Cursor) : step? (scan mode c) = c.scan? mode := by
  cases h : c.ahead with
  | nil => simp [scan_nil h, step?, Cursor.scan?, h]
  | cons x t =>
    rw [scan_eq h, Cursor.scan?, h]
    dsimp only
    cases Scan.ofText mode x t <;> rfl

theorem exists_scan?_of_cons (mode : Mode) (h : c.ahead = x :: t) :
    ∃ step, c.scan? mode = some step := by
  rw [Cursor.scan?, h]
  dsimp only
  split <;> exact ⟨_, rfl⟩

theorem next_skip {o : Options} (h : c.ahead = x :: t) (white : x ∈ o.whitespace) :
    (c.advance 1).skip.next o = c.next o := by
  have same : (c.advance 1).skip.skipWhitespace o.whitespace = c.skipWhitespace o.whitespace := by
    rw [Cursor.skipWhitespace, Cursor.skipWhitespace, Cursor.ahead_skip, Cursor.ahead_advance, h,
      List.drop_succ_cons, List.drop_zero, List.takeWhile_cons_of_pos (by simpa using white)]
    cases run : t.takeWhile (· ∈ o.whitespace) with
    | nil => rfl
    | cons y r => simp only [Cursor.skip_advance_skip, List.length_cons, Nat.add_comm 1]
  rw [Cursor.next, Cursor.next, same]

theorem step?_next (o : Options) (c : Cursor) : step? (next o c) = some (c.next o) := by
  induction ahead : c.ahead generalizing c with
  | nil =>
    rw [next, there_eq, ahead]
    simp [Cursor.next, Cursor.skipWhitespace, Cursor.scan?, ahead, step?, pure_eq_ok]
  | cons x t ih =>
    rw [next, there_eq, look_eq, ahead, List.getElem?_cons_zero, Option.elim_some, ok_bind,
      dif_pos (by simp)]
    by_cases white : x ∈ o.whitespace
    · rw [if_pos white, ← next_skip ahead white]
      exact ih _ (by simp [ahead])
    · have first : c.skipWhitespace o.whitespace = c := by
        simp [Cursor.skipWhitespace, ahead, white]
      rw [if_neg white, step?_scan, Cursor.next, first]
      obtain ⟨step, found⟩ := exists_scan?_of_cons o.mode ahead
      rw [found, Option.getD_some]

/-- Gives out tokens until the text is used up or a step is refused, unless a lookup falls outside. -/
def run (o : Options) (c : Cursor) : Option Run :=
  match _h : step? (next o c) with
  | some (.token token accepted d) => (run o d).map (Run.cons token accepted)
  | some (.refused fault d) => some ⟨[], [], some fault, d⟩
  | some (.finished d) => some ⟨[], [], none, d⟩
  | none => none
termination_by c.ahead.length
decreasing_by
  rw [step?_next, Option.some.injEq] at _h
  exact Cursor.length_ahead_of_next_token _h

theorem run_step (o : Options) (c : Cursor) :
    run o c = match c.next o with
      | .token token accepted d => (run o d).map (Run.cons token accepted)
      | .refused fault d => some ⟨[], [], some fault, d⟩
      | .finished d => some ⟨[], [], none, d⟩ := by
  rw [run]
  split <;> simp_all [step?_next]

/-- Followed by lookup, the rules give the whole run, and no lookup falls outside the text. -/
theorem run_eq (o : Options) (c : Cursor) : run o c = some (c.run o) := by
  fun_induction Cursor.run o c with
  | case1 c token accepted d next ih =>
    rw [run_step, next]
    simp only [ih, Option.map_some]
  | case2 c fault d next => rw [run_step, next]
  | case3 c d next => rw [run_step, next]

end Lexis.Lookup
