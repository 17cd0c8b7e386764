import Lexis.Proofs.ModeEquivalence
import Lexis.Proofs.Session

/-!
# One verdict on a literal

Two lexers stand at the same quote with nothing pending, one in strict and one in lenient mode. What
the strict one finds wrong with the literal, the lenient one notes, and nothing else, although it
gives out a token all the same and has often read on before it comes to its verdict. Where the strict
one finds nothing wrong, both give out the same token and stand at the same place behind it
(`Lexer.SameVerdict`).

For a character literal it takes two characters behind the quote, since lenient reading gives up
before fewer. For a string it takes that no two backslashes are just one character apart, so that
lenient reading keeps step with the escapes, and that no line end is the last character of the text,
which lenient reading leaves to the next token without a look.

Results:
1. `Lexer.SameVerdict.of_token`, `Lexer.SameVerdict.of_refused`: the verdict on a literal from what
   the two rules make of the text behind the quote.
2. `StringLiteral.blamed_of_unterminated`: where an unterminated string is to be blamed.
3. `scan_string_same_verdict`, `scan_character_same_verdict`: the verdicts on strings and characters.
-/

namespace Lexis

open Alphabet

namespace Lexer

def inMode (l : Lexer) (mode : Mode) : Lexer := { l with options := l.options.inMode mode }

/-- `l.SameVerdict kind`: where the lexer stands, the two modes come to the same verdict on a literal
of the kind.

* `token`: both give out the same token, come to the same place and note nothing.
* `refused`: the strict one is refused; the lenient one gives out a token that begins at the same
  place, and keeps the report of the refusal as its one new diagnostic. -/
inductive SameVerdict (l : Lexer) (kind : Kind) : Prop
  | token {token : Token} {m m' : Lexer} :
      (l.inMode .strict).scan = (.token token, m) → (l.inMode .lenient).scan = (.token token, m') →
      token.kind = kind → m'.cursor = m.cursor →
      m.diagnostics = l.diagnostics → m'.diagnostics = l.diagnostics → SameVerdict l kind
  | refused {token : Token} {fault : Fault} {m m' : Lexer} :
      (l.inMode .strict).scan = (.refused fault, m) → (l.inMode .lenient).scan = (.token token, m') →
      token.kind = kind → token.start = l.cursor.index →
      m'.diagnostics = l.diagnostics ++ [m.report fault] → SameVerdict l kind

/-! ## What the rule makes of the text ahead -/

variable {l : Lexer} {c : Char} {t : Text} {kind : Kind} {n : Nat}

theorem scan_of_token {flaw : Option Flaw} (clear : l.cursor.pending = [])
    (ahead : l.cursor.ahead = c :: t)
    (rule : Scan.ofText l.options.mode c t = .token kind n flaw) :
    l.scan.1 = .token ⟨kind, (c :: t).take (n + 1), l.cursor.index⟩ ∧
      l.scan.2.cursor = (l.cursor.advance (n + 1)).skip ∧
      l.scan.2.diagnostics =
        l.diagnostics ++ (flaw.map (Flaw.place l.cursor.index)).toList.map l.report := by
  have index : l.cursor.index = l.cursor.start := by rw [Cursor.index, clear]; rfl
  have step := Cursor.scan?_of_pending_nil l.options.mode clear
  simp only [ahead, rule] at step
  have answer : l.scan = l.take (.token ⟨kind, (c :: t).take (n + 1), l.cursor.start⟩
      (flaw.map (Flaw.place l.cursor.start)) (l.cursor.advance (n + 1)).skip) := by
    rw [scan, step]
    rfl
  refine ⟨?_, ?_, ?_⟩
  · rw [answer, index]
    rfl
  · rw [answer]
    rfl
  · rw [diagnostics, (continues_scan l).report, answer, index]
    exact List.map_append

theorem scan_of_refused {flaw : Flaw} (ahead : l.cursor.ahead = c :: t)
    (rule : Scan.ofText l.options.mode c t = .refused flaw) :
    l.scan.1 = .refused (flaw.place l.cursor.index) ∧ l.scan.2.report = l.report := by
  refine ⟨?_, (continues_scan l).report⟩
  simp only [scan, Cursor.scan?, ahead, rule]
  rfl

theorem SameVerdict.of_token (clear : l.cursor.pending = []) (ahead : l.cursor.ahead = c :: t)
    (strict : Scan.ofText .strict c t = .token kind n none)
    (lenient : Scan.ofText .lenient c t = .token kind n none) : l.SameVerdict kind := by
  obtain ⟨given, place, kept⟩ := scan_of_token (l := l.inMode .strict) clear ahead strict
  obtain ⟨given', place', kept'⟩ := scan_of_token (l := l.inMode .lenient) clear ahead lenient
  exact .token (Prod.ext given rfl) (Prod.ext given' rfl) rfl (place'.trans place.symm)
    (kept.trans (List.append_nil _)) (kept'.trans (List.append_nil _))

theorem SameVerdict.of_refused {flaw : Flaw} (clear : l.cursor.pending = [])
    (ahead : l.cursor.ahead = c :: t) (strict : Scan.ofText .strict c t = .refused flaw)
    (lenient : Scan.ofText .lenient c t = .token kind n (some flaw)) : l.SameVerdict kind := by
  obtain ⟨refused, report⟩ := scan_of_refused (l := l.inMode .strict) ahead strict
  obtain ⟨given, _, kept⟩ := scan_of_token (l := l.inMode .lenient) clear ahead lenient
  refine .refused (Prod.ext refused rfl) (Prod.ext given rfl) rfl rfl ?_
  rw [report]
  exact kept

end Lexer

/-! ## Strings -/

namespace StringLiteral

variable {depth : Nat} {t : Text} {f : Flaw}

/-- A string that is not terminated is blamed on the end of the text or on a line end: the character
to be blamed is one, if there is a character. -/
theorem blamed_of_unterminated (h : strict depth t = .refused f)
    (cause : f.cause = .unterminated .string) :
    ∀ c ∈ t[f.depth - depth]?, c ∈ lineTerminators := by
  fun_induction strict depth t with
  | case1 | case4 =>
    cases h
    simp
  | case2 => cases h
  | case3 depth c t quote line =>
    cases h
    simpa using line
  | case5 depth e t letter _ _ ih =>
    have le : depth + 2 ≤ f.depth := le_of_strict_refused h
    have behind : f.depth - depth = f.depth - (depth + 2) + 2 := by omega
    rw [behind]
    exact ih h
  | case6 =>
    cases h
    cases cause
  | case7 depth c t quote line backslash ih =>
    have le : depth + 1 ≤ f.depth := le_of_strict_refused h
    have behind : f.depth - depth = f.depth - (depth + 1) + 1 := by omega
    rw [behind]
    exact ih h

/-- If the text does not end with a line end, the place to be blamed for an unterminated string is
not the last character. -/
theorem succ_depth_ne (h : strict depth t = .refused f) (cause : f.cause = .unterminated .string)
    (ending : ∀ c ∈ t.getLast?, c ∉ lineTerminators) : f.depth + 1 ≠ depth + t.length := by
  intro last
  have le : depth ≤ f.depth := le_of_strict_refused h
  have filled : t ≠ [] := by
    rintro rfl
    exact absurd (last.trans (Nat.add_zero depth)) (Nat.ne_of_gt (Nat.lt_succ_of_le le))
  have place : f.depth - depth = t.length - 1 := by omega
  have line := blamed_of_unterminated h cause
  rw [place, ← List.getLast?_eq_getElem?] at line
  have mem := List.getLast?_eq_some_getLast filled
  exact ending _ mem (line _ mem)

end StringLiteral

/-- The two modes come to the same verdict on a string, wherever a lexer stands at its opening quote
with nothing pending, if no two backslashes of the source are just one character apart and the
source does not end with a line end. -/
theorem scan_string_same_verdict (l : Lexer) (t : Text) (clear : l.cursor.pending = [])
    (quote : l.cursor.ahead = '"' :: t) (apart : BackslashesApart l.cursor.source)
    (ending : ∀ c ∈ l.cursor.source.getLast?, c ≠ '\n' ∧ c ≠ '\r') :
    l.SameVerdict .string := by
  have source : l.cursor.source = (l.cursor.passed.reverse ++ ['"']) ++ t := by
    rw [Cursor.source, clear, quote, List.nil_append, List.append_assoc, List.singleton_append]
  have apart : BackslashesApart t := by
    refine apart.of_infix ?_
    rw [source]
    exact (List.suffix_append _ t).isInfix
  have ending : ∀ c ∈ t.getLast?, c ∉ lineTerminators := by
    intro c last
    have last : l.cursor.source.getLast? = some c := by
      rw [source, List.getLast?_append, last]
      rfl
    simpa [lineTerminators] using ending c last
  have step := StringLiteral.keepsStep_of_apart apart (.inl rfl)
  cases strict : StringLiteral.strict 1 t with
  | token kind n flaw =>
    obtain ⟨_, _, _, rfl, _, rfl⟩ := StringLiteral.strict_eq_token_iff.mp strict
    have lenient := (StringLiteral.lenient_eq_token_iff strict).mpr step
    exact .of_token clear quote (Scan.ofText_double.trans strict)
      (Scan.ofText_double.trans lenient)
  | refused flaw =>
    obtain ⟨n, lenient⟩ := (StringLiteral.lenient_notes_iff strict).mpr
      ⟨step, fun cause => StringLiteral.succ_depth_ne strict cause ending⟩
    exact .of_refused clear quote (Scan.ofText_double.trans strict)
      (Scan.ofText_double.trans lenient)

theorem scan_string_same_verdict_escape :
    let source := "x\"\\nb\\q\"".toList
    let l := (Lexer.new .standard [] source).next.2
    l.cursor.index = 1 ∧ l.cursor.pending = [] ∧ BackslashesApart source ∧
      (l.inMode .strict).scan.1 = .refused ⟨.invalidEscape 'q', 1, 6⟩ ∧ l.SameVerdict .string := by
  intro source l
  have apart : BackslashesApart source := by decide +kernel
  obtain ⟨place, clear, quote, whole, refused⟩ : l.cursor.index = 1 ∧ l.cursor.pending = [] ∧
      l.cursor.ahead = '"' :: "\\nb\\q\"".toList ∧ l.cursor.source = source ∧
      (l.inMode .strict).scan.1 = .refused ⟨.invalidEscape 'q', 1, 6⟩ := by decide +kernel
  have last : source.getLast? = some '"' := rfl
  have ending : ∀ c ∈ l.cursor.source.getLast?, c ≠ '\n' ∧ c ≠ '\r' := by
    intro c mem
    rw [whole, last] at mem
    cases mem
    decide
  exact ⟨place, clear, apart, refused,
    scan_string_same_verdict l _ clear quote (whole ▸ apart) ending⟩

/-! ## Characters -/

/-- The two modes come to the same verdict on a character literal, wherever a lexer stands at its
opening quote with nothing pending and at least two characters behind the quote. -/
theorem scan_character_same_verdict (l : Lexer) (c d : Char) (t : Text)
    (clear : l.cursor.pending = []) (quote : l.cursor.ahead = '\'' :: c :: d :: t) :
    l.SameVerdict .character := by
  have read (mode : Mode) : Scan.ofText mode '\'' (c :: d :: t) =
      CharacterLiteral.scan mode (c :: d :: t) := Scan.ofText_quote (.inr (List.cons_ne_nil _ _))
  cases strict : CharacterLiteral.strict (c :: d :: t) with
  | token kind n flaw =>
    obtain ⟨_, _, _, rfl, _, rfl⟩ := CharacterLiteral.strict_eq_token_iff.mp strict
    exact .of_token clear quote ((read .strict).trans strict)
      ((read .lenient).trans (CharacterLiteral.lenient_of_strict_token strict))
  | refused flaw =>
    obtain ⟨n, lenient⟩ := CharacterLiteral.lenient_of_strict_refused strict
      (List.cons_ne_nil _ _) fun _ => by simp
    exact .of_refused clear quote ((read .strict).trans strict) ((read .lenient).trans lenient)

/-- A literal of two characters, before which a string has been noted already. -/
theorem scan_character_same_verdict_two :
    let source := "\"\\q'ab'".toList
    let l := (Lexer.new (Options.standard.inMode .lenient) [] source).next.2.next.2
    l.cursor.index = 3 ∧ l.cursor.pending = [] ∧ l.diagnostics.length = 1 ∧
      (l.inMode .strict).scan.1 = .refused ⟨.unterminated .character, 3, 5⟩ ∧
      l.SameVerdict .character := by
  intro source l
  obtain ⟨place, clear, quote, noted, refused⟩ : l.cursor.index = 3 ∧ l.cursor.pending = [] ∧
      l.cursor.ahead = '\'' :: 'a' :: 'b' :: ['\''] ∧ l.diagnostics.length = 1 ∧
      (l.inMode .strict).scan.1 = .refused ⟨.unterminated .character, 3, 5⟩ := by decide +kernel
  exact ⟨place, clear, noted, refused, scan_character_same_verdict l _ _ _ clear quote⟩

/-- With one character behind the quote, lenient reading gives up before it sees that the literal is
empty. -/
example :
    let l := Lexer.new .standard [] "''".toList
    (l.inMode .strict).scan.1 = .refused ⟨.emptyCharacter, 0, 1⟩ ∧
      (l.inMode .lenient).scan.2.accepted = [⟨.unterminated .character, 0, 2⟩] := by
  decide +kernel

end Lexis
