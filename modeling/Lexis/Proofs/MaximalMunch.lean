import Lexis.Proofs.Grammar
import Lexis.Proofs.Reading

/-!
# Strict reading is maximal munch

The reference reading of a text goes from left to right: a character that is skipped is passed, and
of what stands there otherwise the longest lexeme is taken (`Munches`). It may come to the end, or
get stuck before a character with which no lexeme begins.

Results:
1. `Munches.unique`: the reference reading of a text is unique.
2. `munches_read`: strict reading is a reference reading.
3. `lex_strict_maximal_munch`: strict lexing answers with the tokens of the reference reading if it
   comes to the end, and with a fault in the literal before which it gets stuck if it does not.
-/

namespace Lexis

/-- `Munches whitespace n t tokens stop`: the reference reading of a text that begins at offset `n`
gives the tokens and gets stuck at the offset `stop`, or comes to the end if there is none. -/
inductive Munches (whitespace : Text) : Nat → Text → List Token → Option Nat → Prop
  | finished {n : Nat} : Munches whitespace n [] [] none
  | stuck {n : Nat} {c : Char} {t : Text} : c ∉ whitespace →
      (∀ kind lexeme, lexeme <+: c :: t → ¬ Spelling kind lexeme) →
      Munches whitespace n (c :: t) [] (some n)
  | skipped {n : Nat} {c : Char} {t : Text} {tokens : List Token} {stop : Option Nat} :
      c ∈ whitespace → Munches whitespace (n + 1) t tokens stop →
      Munches whitespace n (c :: t) tokens stop
  | token {n : Nat} {c : Char} {t lexeme : Text} {kind : Kind} {tokens : List Token}
      {stop : Option Nat} : c ∉ whitespace → Longest kind lexeme (c :: t) →
      Munches whitespace (n + lexeme.length) ((c :: t).drop lexeme.length) tokens stop →
      Munches whitespace n (c :: t) (⟨kind, lexeme, n⟩ :: tokens) stop

/-- The reference reading of a text is unique. -/
theorem Munches.unique {whitespace : Text} {n : Nat} {t : Text} {tokens others : List Token}
    {stop stop' : Option Nat} (h : Munches whitespace n t tokens stop)
    (h' : Munches whitespace n t others stop') : tokens = others ∧ stop = stop' := by
  induction h generalizing others with
  | finished =>
    cases h'
    exact ⟨rfl, rfl⟩
  | stuck black none =>
    cases h' with
    | stuck => exact ⟨rfl, rfl⟩
    | skipped white => exact absurd white black
    | token _ longest => exact absurd longest.2.1 (none _ _ longest.1)
  | skipped white _ ih =>
    cases h' with
    | stuck black => exact absurd white black
    | skipped _ rest => exact ih rest
    | token black => exact absurd white black
  | token black longest _ ih =>
    cases h' with
    | stuck _ none => exact absurd longest.2.1 (none _ _ longest.1)
    | skipped white => exact absurd white black
    | token _ longest' rest =>
      obtain ⟨rfl, rfl⟩ := longest.unique longest'
      obtain ⟨rfl, rfl⟩ := ih rest
      exact ⟨rfl, rfl⟩

/-- Strict reading is a reference reading. -/
theorem munches_read {o : Options} (strict : o.mode = .strict) (n : Nat) (t : Text) :
    Munches o.whitespace n t ((o.read t).shift n).tokens
      (((o.read t).shift n).refusal.map Fault.start) := by
  induction t using o.read_induction generalizing n with
  | nil =>
    rw [o.read_nil]
    exact .finished
  | white c t white ih =>
    rw [Options.read_white white, Reading.shift_shift]
    exact .skipped white (ih (n + 1))
  | token c t kind further flaw black scan le ih =>
    have scanned := scan
    rw [strict] at scanned
    obtain ⟨longest, _⟩ := Scan.longest_of_token scanned
    have length : ((c :: t).take (further + 1)).length = further + 1 := by
      simp only [List.length_take, List.length_cons]
      omega
    have rest := ih (n + (further + 1))
    rw [Options.read_token black scan, Reading.shift_cons, Reading.shift_shift]
    have munch := Munches.token (n := n) black longest (by rw [length]; exact rest)
    simpa [Token.shift, Reading.cons] using munch
  | refused c t flaw black scan _ =>
    rw [Options.read_refused black scan]
    rw [strict] at scan
    exact .stuck black (Scan.no_spelling_of_refused (Options.ne_space_of_not_mem black) scan)

/-- Strict lexing is maximal munch: it answers with the tokens of the reference reading if that
comes to the end, and with a fault if and only if the reference reading gets stuck, which it does
where the faulty literal begins. -/
theorem lex_strict_maximal_munch (o : Options) (filename source : Text) :
    (∀ tokens, ((Lexer.new (o.inMode .strict) filename source).lex).1 = .ok tokens ↔
      Munches o.whitespace 0 source tokens none) ∧
    (∀ place, (∃ fault, ((Lexer.new (o.inMode .strict) filename source).lex).1 = .error fault ∧
        fault.start = place) ↔
      ∃ tokens, Munches o.whitespace 0 source tokens (some place)) := by
  have munches := munches_read (o := o.inMode .strict) rfl 0 source
  rw [Reading.shift_zero, show (o.inMode .strict).whitespace = o.whitespace from rfl] at munches
  constructor
  · intro tokens
    rw [Lexer.lex_new_eq_ok_iff]
    constructor
    · rintro ⟨finished, rfl⟩
      rwa [finished] at munches
    · intro reference
      obtain ⟨same, stop⟩ := munches.unique reference
      exact ⟨Option.map_eq_none_iff.mp stop, same⟩
  · intro place
    simp only [Lexer.lex_new_eq_error_iff]
    constructor
    · rintro ⟨fault, refused, rfl⟩
      rw [refused] at munches
      exact ⟨_, munches⟩
    · rintro ⟨tokens, reference⟩
      obtain ⟨_, stop⟩ := munches.unique reference
      exact Option.map_eq_some_iff.mp stop

end Lexis
