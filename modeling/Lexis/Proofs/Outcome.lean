import Lexis.Proofs.Boundary
import Lexis.Proofs.LookupSafety

/-!
# What lexing comes to

Lexing answers with tokens or is refused, and it is refused in strict reading only, with a fault of
a literal (`Fault.OfLiteral`). Nothing else can go wrong: no character is looked up outside the
text, and none is met that begins no token. For the latter, the settings and the order of the rules
work together: the space is the one character that begins no token, and it is always skipped.

Results:
1. `CharacterLiteral.ofLiteral_of_refused`, `StringLiteral.ofLiteral_of_refused`: what a literal is
   refused for in strict reading.
2. `lex_refused_only_for_literals`: what lexing comes to, for every text in both modes.
-/

namespace Lexis

open Alphabet

def Literal.quote : Literal → Char
  | .character => '\''
  | .string => '"'

/-- The fault of a literal of the text: the literal is not closed, a backslash makes no escape with
the character to be blamed, or right behind the opening single quote there is another one, or a tab,
a backspace or a form feed. -/
inductive Fault.OfLiteral (source : Text) : Fault → Prop
  | unterminated {literal : Literal} {start offset : Nat}
      (opening : source[start]? = some literal.quote) :
      OfLiteral source ⟨.unterminated literal, start, offset⟩
  | invalidEscape {literal : Literal} {letter : Char} {start offset : Nat}
      (opening : source[start]? = some literal.quote)
      (backslash : source[offset]? = some '\\') (blamed : source[offset + 1]? = some letter)
      (noEscape : letter ∉ escapeLetters) :
      OfLiteral source ⟨.invalidEscape letter, start, offset + 1⟩
  | emptyCharacter {start : Nat} (opening : source[start]? = some '\'')
      (blamed : source[start + 1]? = some '\'') :
      OfLiteral source ⟨.emptyCharacter, start, start + 1⟩
  | rawControl {control : Char} {start : Nat} (opening : source[start]? = some '\'')
      (blamed : source[start + 1]? = some control) (raw : control ∈ ['\t', '\x08', '\x0c']) :
      OfLiteral source ⟨.rawControl control, start, start + 1⟩

theorem Fault.OfLiteral.append {t : Text} {fault : Fault} (h : OfLiteral t fault) (a : Text) :
    OfLiteral (a ++ t) (fault.shift a.length) := by
  have moved {n : Nat} {c : Char} (at_n : t[n]? = some c) :
      (a ++ t)[a.length + n]? = some c := by
    rw [List.getElem?_append_right (Nat.le_add_right _ _), Nat.add_sub_cancel_left, at_n]
  cases h with
  | unterminated opening => exact .unterminated (moved opening)
  | invalidEscape opening backslash blamed noEscape =>
    exact .invalidEscape (moved opening) (moved backslash) (moved blamed) noEscape
  | emptyCharacter opening blamed => exact .emptyCharacter (moved opening) (moved blamed)
  | rawControl opening blamed raw => exact .rawControl (moved opening) (moved blamed) raw

/-! ## What literals are refused for -/

theorem CharacterLiteral.cause_of_close_refused {depth : Nat} {t : Text} {flaw : Flaw}
    (h : close depth t = .refused flaw) : flaw.cause = .unterminated .character := by
  unfold close at h
  split at h <;> cases h
  rfl

theorem mem_of_control {x : Char} (control : x ∈ controlChars) (line : x ∉ lineTerminators) :
    x ∈ ['\t', '\x08', '\x0c'] := by
  have rest : ∀ y ∈ controlChars, y ∉ lineTerminators → y ∈ ['\t', '\x08', '\x0c'] :=
    forall_mem_of_all (by decide)
  exact rest x control line

theorem CharacterLiteral.ofLiteral_of_refused {t : Text} {flaw : Flaw}
    (h : strict t = .refused flaw) : Fault.OfLiteral ('\'' :: t) (flaw.place 0) := by
  have opening : ('\'' :: t)[0]? = some Literal.character.quote := rfl
  have unclosed (flaw : Flaw) (cause : flaw.cause = .unterminated .character) :
      Fault.OfLiteral ('\'' :: t) (flaw.place 0) := by
    rw [Flaw.place, cause]
    exact .unterminated opening
  unfold strict at h
  split at h
  · cases h
    exact unclosed _ rfl
  next x t =>
  split at h
  · next quote =>
    cases h
    subst quote
    exact .emptyCharacter rfl rfl
  split at h
  · cases h
    exact unclosed _ rfl
  next line =>
  split at h
  · next control =>
    cases h
    exact .rawControl rfl rfl (mem_of_control control line)
  split at h
  · next backslash =>
    subst backslash
    split at h
    · cases h
      exact unclosed _ rfl
    split at h
    · exact unclosed _ (cause_of_close_refused h)
    · next noEscape =>
      cases h
      exact .invalidEscape opening rfl rfl noEscape
  · exact unclosed _ (cause_of_close_refused h)

/-- `l` is what has been read behind the opening quote. -/
theorem StringLiteral.ofLiteral_of_refused {t l : Text} {flaw : Flaw}
    (h : strict (l.length + 1) t = .refused flaw) :
    Fault.OfLiteral ('"' :: (l ++ t)) (flaw.place 0) := by
  have opening (t : Text) : ('"' :: t)[0]? = some Literal.string.quote := rfl
  generalize read : l.length + 1 = depth at h
  fun_induction strict depth t generalizing l with
  | case1 | case3 | case4 =>
    cases h
    exact .unterminated (opening _)
  | case2 => cases h
  | case5 depth e t letter _ _ ih =>
    have rest := ih (l := l ++ ['\\', e]) (by simp [← read]) h
    rwa [List.append_assoc] at rest
  | case6 depth e t letter =>
    cases h
    subst read
    rw [Flaw.place, Nat.zero_add]
    exact .invalidEscape (opening _) (by simp) (by simp) letter
  | case7 depth x t quote line backslash ih =>
    have rest := ih (l := l ++ [x]) (by simp [← read]) h
    rwa [List.append_assoc] at rest

theorem Scan.ofLiteral_of_refused {c : Char} {t : Text} {flaw : Flaw} (space : c ≠ ' ')
    (h : ofText .strict c t = .refused flaw) : Fault.OfLiteral (c :: t) (flaw.place 0) := by
  rcases quote_of_refused space h with rfl | rfl
  · rw [ofText_quote (.inl rfl)] at h
    exact CharacterLiteral.ofLiteral_of_refused h
  · rw [ofText_double] at h
    exact StringLiteral.ofLiteral_of_refused (l := []) h

/-! ## Whole texts -/

/-- Strict reading is refused for literals only. -/
theorem Options.ofLiteral_of_refusal {o : Options} {t : Text} {fault : Fault}
    (strict : o.mode = .strict) (refused : (o.read t).refusal = some fault) :
    fault.OfLiteral t := by
  obtain ⟨a, c, u, flaw, rfl, _, black, scan, rfl⟩ := exists_of_refused strict refused
  rw [← Nat.add_zero a.length, Flaw.place_add]
  exact (Scan.ofLiteral_of_refused (ne_space_of_not_mem black) scan).append a

/-- Lexing answers with tokens, or it is refused in strict reading for a literal of the text. On the
way no character is looked up outside the text. -/
theorem lex_refused_only_for_literals (o : Options) (filename source : Text) :
    Lookup.run o (Cursor.ofText source) = some (lex o source) ∧
    ((∃ tokens, ((Lexer.new o filename source).lex).1 = .ok tokens) ∨
      o.mode = .strict ∧ ∃ fault, ((Lexer.new o filename source).lex).1 = .error fault ∧
        fault.OfLiteral source) := by
  refine ⟨Lookup.run_eq o _, ?_⟩
  cases refusal : (o.read source).refusal with
  | none => exact .inl ⟨_, (Lexer.lex_new_eq_ok_iff o filename source).mpr ⟨refusal, rfl⟩⟩
  | some fault =>
    have strict : o.mode = .strict := by
      cases mode : o.mode with
      | strict => rfl
      | lenient =>
        have finished := Options.refusal_lenient o source
        rw [← mode, show o.inMode o.mode = o from rfl, refusal] at finished
        cases finished
    exact .inr ⟨strict, fault, (Lexer.lex_new_eq_error_iff o filename source).mpr refusal,
      Options.ofLiteral_of_refusal strict refusal⟩

/-- This is so because lexing skips the spaces: no token begins with one. -/
example : ((Lexer.new Options.standard [] [' ']).scan).1 = .refused ⟨.noToken ' ', 0, 0⟩ := by
  decide

end Lexis
