import Lexis.Proofs.ModeEquivalence
import Lexis.Proofs.Stream

/-!
# Malformed literals

Lenient reading makes a token of whatever follows a quote, and notes a flaw on a dozen ways to the
end of it, before it is known what the lexeme will be. All the same, the flaw says exactly whether
the lexeme is a literal: a token is noted just if it is called a character or a string but is none
in strict reading. The reason is that the two modes agree on the tokens without a flaw, in both
directions, and strict reading gives out what the grammar of tokens says.

As before, this takes that no two backslashes are just one character apart. Otherwise lenient
reading may close a string at a quote that is escaped, and a backslash behind an escape is a plain
character to it.

Results:
1. `CharacterLiteral.strict_of_lenient_token`, `StringLiteral.strict_of_lenient_token`: a literal
   that lenient reading finds no flaw in is one of strict reading.
2. `Scan.flaw_eq_none_iff`: whatever the rule, the flaw says whether the token is malformed.
3. `Lexer.Drawn.noted`: the same for a token that is drawn from a lexer.
4. `diagnostics_lenient_exact`: each token adds one diagnostic if it is malformed, and none
   otherwise.
-/

namespace Lexis

open Alphabet

/-- The token is called a character or a string, but its lexeme is no literal of that kind. -/
def Token.Malformed (t : Token) : Prop :=
  (t.kind = .character ∨ t.kind = .string) ∧ ¬ Spelling t.kind t.lexeme

instance (t : Token) : Decidable t.Malformed := inferInstanceAs (Decidable (_ ∧ ¬ _))

variable {c : Char} {t : Text} {kind : Kind} {n : Nat} {flaw : Option Flaw}

/-! ## Literals without a flaw -/

namespace CharacterLiteral

variable {depth : Nat}

theorem close_of_lenientClose (h : lenientClose depth none t = .token kind n none) :
    depth ≠ 1 ∧ close depth t = .token kind n none := by
  unfold lenientClose at h
  split at h
  · split at h
    · cases h
    · next inside =>
      cases h
      exact ⟨inside, rfl⟩
  · cases h

theorem strict_of_lenient_token (h : lenient t = .token kind n none) :
    strict t = .token kind n none := by
  unfold lenient at h
  split at h
  · next c d t =>
    split at h
    · next backslash =>
      subst backslash
      split at h
      · next letter =>
        have closed := (close_of_lenientClose h).2
        rw [strict, if_neg (by decide), if_neg (by decide), if_neg (by decide), if_pos rfl]
        exact (if_pos letter).trans closed
      · cases h
    next backslash =>
    split at h
    · obtain ⟨m, noted⟩ := lenientBody_some 2 (controlFlaw c) (d :: t)
      cases noted.symm.trans h
    next control =>
    rw [lenientBody] at h
    split at h
    · next plain =>
      have quote : c ≠ '\'' := by
        rintro rfl
        exact plain (by decide)
      have closed := (close_of_lenientClose h).2
      rw [strict, if_neg quote, if_neg fun line => control (controls_of_line line),
        if_neg control, if_neg backslash]
      exact closed
    · exact absurd rfl (close_of_lenientClose h).1
  · cases h

end CharacterLiteral

namespace StringLiteral

variable {depth : Nat} {escaped : Bool}

theorem eq_none_of_lenient (h : lenient depth escaped flaw t = .token kind n none) :
    flaw = none := by
  cases flaw with
  | none => rfl
  | some f =>
    obtain ⟨m, noted⟩ := lenient_some depth escaped f t
    cases noted.symm.trans h

/-- A literal that lenient reading finds no flaw in is one of strict reading, if its backslashes are
apart. -/
theorem strict_of_lenient_token (apart : BackslashesApart t)
    (first : escaped = true → t.head? ≠ some '\\')
    (h : lenient depth escaped flaw t = .token kind n none) :
    strict depth t = .token kind n none := by
  fun_induction lenient depth escaped flaw t with
  | case1 | case3 | case6 =>
    cases (Option.or_eq_none_iff.mp (Scan.token.inj h).2.2).2
  | case2 | case4 =>
    cases h
    rw [strict, if_pos rfl]
  | case5 depth escaped flaw c d t quote backslash letter ih =>
    obtain ⟨rfl, _⟩ := backslash
    rw [strict_escape letter]
    refine ih apart.tail.tail ?_ h
    intro _ head
    obtain ⟨r, rfl⟩ := List.head?_eq_some_iff.mp head
    exact apart 0 ⟨rfl, rfl⟩
  | case7 depth escaped flaw c d t quote asIs ih =>
    -- a backslash that is taken as it is would stand right behind an escape
    have backslash : c ≠ '\\' := by
      rintro rfl
      cases escaped with
      | false => exact asIs ⟨rfl, Bool.false_ne_true⟩
      | true => exact first rfl rfl
    have unnoted := (Option.or_eq_none_iff.mp (eq_none_of_lenient h)).2
    have line : c ∉ lineTerminators := by
      intro line
      rw [plainFlaw?, if_pos line] at unnoted
      cases unnoted
    rw [strict_plain (by simp_all [lineTerminators])]
    exact ih apart.tail (fun escaped => absurd escaped Bool.false_ne_true) h

end StringLiteral

/-! ## Whatever the rule -/

theorem CharacterLiteral.flaw_eq_none_iff (h : lenient t = .token .character n flaw) :
    flaw = none ↔ Spelling .character ('\'' :: t.take n) := by
  constructor
  · rintro rfl
    have strict : Scan.ofText .strict '\'' t = .token .character n none :=
      (Scan.ofText_quote (.inl rfl)).trans (strict_of_lenient_token h)
    exact (Scan.longest_of_token strict).1.2.1
  · intro spelled
    obtain ⟨_, strict⟩ := Scan.character_of_quote spelled (List.take_prefix n t)
    exact (Scan.token.inj (h.symm.trans (lenient_of_strict_token strict))).2.2

/-- A string literal has no flaw just if it is one in strict reading, if its backslashes are
apart. -/
theorem StringLiteral.flaw_eq_none_iff (apart : BackslashesApart t)
    (h : lenient 1 false none t = .token .string n flaw) :
    flaw = none ↔ Spelling .string ('"' :: t.take n) := by
  constructor
  · rintro rfl
    have strict : Scan.ofText .strict '"' t = .token .string n none := by
      refine Scan.ofText_double.trans (strict_of_lenient_token apart ?_ h)
      exact nofun
    exact (Scan.longest_of_token strict).1.2.1
  · intro spelled
    obtain ⟨_, strict⟩ := Scan.string_of_quote spelled (List.take_prefix n t)
    have lenient := (lenient_eq_token_iff strict).mpr (keepsStep_of_apart apart (.inl rfl))
    exact (Scan.token.inj (h.symm.trans lenient)).2.2

namespace Scan

/-- The tokens of lenient reading: character literals, string literals, and others, which have no
flaw. -/
theorem lenient_token_cases (h : ofText .lenient c t = .token kind n flaw) :
    (c = '\'' ∧ kind = .character ∧ CharacterLiteral.lenient t = .token .character n flaw) ∨
    (c = '"' ∧ kind = .string ∧ StringLiteral.lenient 1 false none t = .token .string n flaw) ∨
    (¬ (kind = .character ∨ kind = .string) ∧ flaw = none) := by
  unfold ofText at h
  split at h
  · cases h
    exact .inr (.inr ⟨by simp, rfl⟩)
  split at h
  · unfold Numeral.scan at h
    split at h
    · cases h
      exact .inr (.inr ⟨by simp, rfl⟩)
    · cases h
      refine .inr (.inr ⟨?_, rfl⟩)
      rcases kind_tail .lenient t with other | other <;> simp [other]
  split at h
  · next quote =>
    obtain ⟨_, _, scan⟩ := CharacterLiteral.exists_lenient_token t
    obtain ⟨rfl, _⟩ := token.inj (scan.symm.trans h)
    exact .inl ⟨quote.1, rfl, h⟩
  split at h
  · next double =>
    obtain ⟨_, _, scan⟩ := StringLiteral.exists_lenient_token 1 false none t
    obtain ⟨rfl, _⟩ := token.inj (scan.symm.trans h)
    exact .inr (.inl ⟨double, rfl, h⟩)
  split at h
  · cases h
  · cases h
    exact .inr (.inr ⟨by simp, rfl⟩)

theorem flaw_eq_none_iff (apart : BackslashesApart t)
    (h : ofText .lenient c t = .token kind n flaw) (start : Int) :
    flaw = none ↔ ¬ Token.Malformed ⟨kind, (c :: t).take (n + 1), start⟩ := by
  rw [List.take_succ_cons]
  rcases lenient_token_cases h with ⟨rfl, rfl, scan⟩ | ⟨rfl, rfl, scan⟩ | ⟨other, rfl⟩
  · rw [CharacterLiteral.flaw_eq_none_iff scan]
    simp [Token.Malformed]
  · rw [StringLiteral.flaw_eq_none_iff apart scan]
    simp [Token.Malformed]
  · simp [Token.Malformed, other]

end Scan

/-! ## Tokens that are drawn from a lexer -/

namespace Lexer.Drawn

variable {o : Options} {filename source : Text} {l m : Lexer} {token : Token}

theorem diagnostics_eq (h : l.Drawn o filename source) :
    l.diagnostics = l.accepted.map (Fault.report source filename) := by
  have report : l.report = Fault.report source filename := by
    funext fault
    rw [Lexer.report, h.source, h.filename]
  rw [diagnostics, report]

/-- A token that is drawn in lenient reading adds a fault just if it is malformed. -/
theorem noted (h : l.Drawn o filename source) (lenient : o.mode = .lenient)
    (apart : BackslashesApart source) (step : l.next = (.token token, m)) :
    ∃ fault : Option Fault, m.accepted = l.accepted ++ fault.toList ∧
      (fault = none ↔ ¬ token.Malformed) := by
  cases asked_of_next step with
  | token streaming taken =>
  obtain ⟨white, x, t, kind, further, flaw, reads⟩ :=
    Cursor.exists_reads (h.pending streaming) taken
  have piece : t <:+: source := by
    rw [← h.source, Cursor.source, reads.ahead]
    exact ((((List.suffix_cons x t).trans (List.suffix_append white _)).trans
      (List.suffix_append _ _)).trans (List.suffix_append _ _)).isInfix
  obtain ⟨d', taken', _⟩ := reads.next (h.pending streaming)
  obtain ⟨rfl, rfl, rfl⟩ := Step.token.inj (taken.symm.trans taken')
  have scan := reads.scan
  rw [h.options, lenient] at scan
  refine ⟨_, rfl, ?_⟩
  rw [Option.map_eq_none_iff]
  exact Scan.flaw_eq_none_iff (apart.of_infix piece) scan _

end Lexer.Drawn

/-- The diagnostics of lenient lexing are exact. Where no two backslashes of the source are just one
character apart, each token that is drawn adds one diagnostic if it is malformed, and leaves the
diagnostics as they are otherwise. -/
theorem diagnostics_lenient_exact (o : Options) (filename source : Text)
    (apart : BackslashesApart source) (k : Nat) (answers : List Lexer.Answer) (l m : Lexer)
    (token : Token)
    (drawn : (Lexer.new (o.inMode .lenient) filename source).draw k = (answers, l))
    (step : l.next = (.token token, m)) :
    (token.Malformed → ∃ report, m.diagnostics = l.diagnostics ++ [report]) ∧
    (¬ token.Malformed → m.diagnostics = l.diagnostics) := by
  have before : l.Drawn (o.inMode .lenient) filename source := by
    have kept := (Lexer.Drawn.of_new (o.inMode .lenient) filename source).draw k
    rwa [drawn] at kept
  have after : m.Drawn (o.inMode .lenient) filename source := by
    have kept := before.next
    rwa [step] at kept
  obtain ⟨fault, accepted, exact⟩ := before.noted rfl apart step
  rw [before.diagnostics_eq, after.diagnostics_eq, accepted, List.map_append]
  constructor
  · intro malformed
    cases fault with
    | none => exact absurd malformed (exact.mp rfl)
    | some fault => exact ⟨_, rfl⟩
  · intro wellFormed
    rw [exact.mpr wellFormed]
    exact List.append_nil _

/-- A string that holds a line end is malformed even where a quote closes it; the escape in the
literal before it is in order. -/
theorem diagnostics_lenient_exact_line_end :
    let source := "'\\n'\"a\n\"".toList
    let first := (Lexer.new (Options.standard.inMode .lenient) [] source).next.2
    first.diagnostics = [] ∧ first.next.1 = .token ⟨.string, "\"a\n\"".toList, 4⟩ ∧
      ∃ report, first.next.2.diagnostics = first.diagnostics ++ [report] := by
  intro source first
  have apart : BackslashesApart source := by decide +kernel
  have none := diagnostics_lenient_exact .standard [] source apart 0 [] _ first
    ⟨.character, "'\\n'".toList, 0⟩ rfl (Prod.ext (by decide +kernel) rfl)
  have one := diagnostics_lenient_exact .standard [] source apart 1 _ first first.next.2
    ⟨.string, "\"a\n\"".toList, 4⟩ rfl (Prod.ext (by decide +kernel) rfl)
  exact ⟨none.2 (by decide +kernel), by decide +kernel, one.1 (by decide +kernel)⟩

/-- With backslashes one character apart, a string that is in order may be noted. -/
example :
    let source := "\"\\\\\\\\\"".toList
    let (answer, l) := (Lexer.new (Options.standard.inMode .lenient) [] source).next
    answer = .token ⟨.string, source, 0⟩ ∧ ¬ Token.Malformed ⟨.string, source, 0⟩ ∧
      l.diagnostics.length = 1 := by
  decide +kernel

end Lexis
