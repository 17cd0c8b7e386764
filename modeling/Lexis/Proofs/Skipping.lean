import Lexis.Command.Run
import Lexis.Proofs.Reading

/-!
# Skipping more

What is skipped between tokens matters only in front of a token. A character that may be skipped
begins no identifier, number or literal, so where it is not skipped it is an operator; and it is an
operator by itself unless it forms one with the character behind it, which `!`, `=`, `&` and `|` may
do. Other settings that skip more characters, those four apart, therefore read the same tokens
without the operators made of one of these characters, and leave everything else as it was: the
literals that hold such a character, the faults, and the fault that ends the reading.

Results:
1. `Scan.ofText_of_free`: a character that may be skipped is an operator where it is not.
2. `Options.read_widened`: reading with more characters skipped, in either mode.
3. `Options.Widened.skippingLineEnds`, `Command.TokensRequest.options_skippingLineEnds`: skipping
   line ends is skipping more, and it is what the option of the command asks for.
4. `lex_skipping_more`: the same for lexing.
-/

namespace Lexis

open Alphabet

/-- The characters that may form an operator with the one behind them. -/
def pairing : Text := ['!', '=', '&', '|']

/-- `o.Widened o'`: the settings `o'` are `o`, but more characters may be skipped, none of which
forms an operator with the one behind it. -/
structure Options.Widened (o o' : Options) : Prop where
  mode : o'.mode = o.mode
  subset : o.whitespace ⊆ o'.whitespace
  added : ∀ c ∈ o'.whitespace, c ∉ o.whitespace → c ∉ pairing

/-- Whether a token is an operator of one character that is skipped in `o'` but not in `o`. -/
def Token.isAdded (o o' : Options) (t : Token) : Bool :=
  t.kind = .operator && o'.whitespace.any fun c => c ∉ o.whitespace && t.lexeme = [c]

variable {o o' : Options} {c : Char} {t : Text}

/-! ## A character that may be skipped -/

theorem lookup_of_not_pairing (h : c ∉ pairing) : operatorPairs.lookup c = none := by
  have all : ∀ p ∈ operatorPairs, p.1 ∈ pairing := by decide
  rw [List.lookup_eq_none_iff]
  intro p mem
  rw [bne_iff_ne]
  rintro rfl
  exact h (all p mem)

theorem Scan.ofText_of_free {mode : Mode} (free : c ∉ tokenStarts) (space : c ≠ ' ')
    (single : c ∉ pairing) : ofText mode c t = .token .operator 0 none := by
  have ident : c ∉ identStart := fun mem => free (identStart_subset_tokenStarts mem)
  have digit : c ∉ digits := fun mem => free (digits_subset_tokenStarts mem)
  have other {d : Char} (start : d ∈ tokenStarts) : c ≠ d := by
    rintro rfl
    exact free start
  have number : startsNumber mode c t = false := by
    simp [startsNumber, digit, other (show '-' ∈ tokenStarts by decide)]
  rw [ofText, if_neg ident, number, if_neg Bool.false_ne_true,
    if_neg fun quote => other (by decide) quote.1, if_neg (other (by decide)), if_neg space,
    operatorTail, lookup_of_not_pairing single]

/-! ## Which tokens are left out -/

theorem Token.isAdded_iff {token : Token} : token.isAdded o o' = true ↔
    token.kind = .operator ∧ ∃ c ∈ o'.whitespace, c ∉ o.whitespace ∧ token.lexeme = [c] := by
  simp [isAdded]

theorem Token.isAdded_eq_false {kind : Kind} {l : Text} {start : Int} (black : c ∉ o'.whitespace) :
    Token.isAdded o o' ⟨kind, c :: l, start⟩ = false := by
  rw [Bool.eq_false_iff]
  intro added
  obtain ⟨_, d, white, _, lexeme⟩ := isAdded_iff.mp added
  obtain ⟨rfl, _⟩ := List.cons.inj lexeme
  exact black white

theorem Token.isAdded_shift (n : Nat) (token : Token) :
    (token.shift n).isAdded o o' = token.isAdded o o' := rfl

/-! ## Reading -/

namespace Options

/-- A character that is skipped in the one settings only is an operator in the other. -/
theorem Widened.ofText_of_added (wider : o.Widened o') (white : c ∈ o'.whitespace)
    (black : c ∉ o.whitespace) : Scan.ofText o.mode c t = .token .operator 0 none :=
  Scan.ofText_of_free (o'.starts_free c white) (ne_space_of_not_mem black)
    (wider.added c white black)

/-- With more characters skipped, a text is read as before, but for the operators that these
characters were. -/
theorem read_widened (wider : o.Widened o') (t : Text) :
    o'.read t = (o.read t).without (Token.isAdded o o') := by
  -- the step of `o'` follows that of `o`; they differ where `o'` skips a character and `o` does not
  induction t using o.read_induction with
  | nil =>
    rw [read_nil, read_nil]
    rfl
  | white c t white ih =>
    rw [read_white white, read_white (wider.subset white),
      Reading.without_shift Token.isAdded_shift, ih]
  | token c t kind further flaw black scan le ih =>
    rw [read_token black scan]
    by_cases white : c ∈ o'.whitespace
    · cases scan.symm.trans (wider.ofText_of_added white black)
      have added : Token.isAdded o o' ⟨.operator, [c], 0⟩ = true :=
        Token.isAdded_iff.mpr ⟨rfl, c, white, black, rfl⟩
      rw [read_white white, Option.map_none, List.take_succ_cons, List.take_zero,
        Reading.without_cons_of_pos added, Reading.without_shift Token.isAdded_shift, ← ih,
        List.drop_zero]
    · have kept : Token.isAdded o o' ⟨kind, c :: t.take further, 0⟩ = false :=
        Token.isAdded_eq_false white
      rw [← wider.mode] at scan
      rw [read_token white scan, List.take_succ_cons, Reading.without_cons_of_neg kept,
        Reading.without_shift Token.isAdded_shift, ih]
  | refused c t flaw black scan =>
    have black' : c ∉ o'.whitespace := by
      intro white
      cases scan.symm.trans (wider.ofText_of_added white black)
    rw [read_refused black scan]
    rw [← wider.mode] at scan
    rw [read_refused black' scan]
    rfl

theorem Widened.skippingLineEnds (o : Options) : o.Widened o.skippingLineEnds where
  mode := rfl
  subset := List.subset_append_left _ _
  added := by
    have single : ∀ d ∈ lineTerminators, d ∉ pairing := by simp [lineTerminators, pairing]
    intro c white black
    rcases List.mem_append.mp white with white | white
    · exact absurd white black
    · exact single c (List.mem_filter.mp white).1

end Options

/-- The option to skip line ends has the command skip them in the settings it has otherwise, and
has no part in whether these are refused. -/
theorem Command.TokensRequest.options_skippingLineEnds (r : TokensRequest) (env : Environment) :
    ({ r with skipLineEnds := true }).options env =
      (({ r with skipLineEnds := false }).options env).map Options.skippingLineEnds := by
  unfold options
  cases env.options with
  | error e => rfl
  | ok base => rfl

/-! ## Lexing -/

/-- Lexing with more characters skipped, none of which forms an operator with the one behind it, is
refused with the same fault or answers with the same tokens but for the operators that are one of
these characters, and keeps the same diagnostics. So it is with the option of the command to skip
line ends, which skips more in just this way. -/
theorem lex_skipping_more :
    (∀ (o o' : Options) (filename source : Text), o.Widened o' →
      ((Lexer.new o' filename source).lex).1 =
        ((Lexer.new o filename source).lex).1.map (List.filter fun t => !t.isAdded o o') ∧
      ((Lexer.new o' filename source).lex).2.diagnostics =
        ((Lexer.new o filename source).lex).2.diagnostics) ∧
    (∀ (r : Command.TokensRequest) (env : Environment),
      ({ r with skipLineEnds := true }).options env =
        (({ r with skipLineEnds := false }).options env).map Options.skippingLineEnds) ∧
    ∀ o : Options, o.Widened o.skippingLineEnds := by
  refine ⟨fun o o' filename source wider => ?_, fun r env => r.options_skippingLineEnds env,
    Options.Widened.skippingLineEnds⟩
  have reading := Options.read_widened wider source
  constructor
  · rw [Lexer.lex_new, Lexer.lex_new, reading]
    cases refusal : (o.read source).refusal <;> simp [Reading.without, refusal, Except.map]
  · rw [Lexer.diagnostics_lex_new, Lexer.diagnostics_lex_new, reading]
    rfl

/-- Only the line ends between the tokens go away; that of the malformed literal stays. -/
theorem lex_skipping_more_line_ends :
    ((Lexer.new (Options.standard.inMode .lenient) [] "x\n'\n'\n!\n=".toList).lex).1 =
      .ok [⟨.identifier, ['x'], 0⟩, ⟨.operator, ['\n'], 1⟩, ⟨.character, "'\n'".toList, 2⟩,
        ⟨.operator, ['\n'], 5⟩, ⟨.operator, ['!'], 6⟩, ⟨.operator, ['\n'], 7⟩,
        ⟨.operator, ['='], 8⟩] ∧
    ((Lexer.new (Options.standard.inMode .lenient).skippingLineEnds []
      "x\n'\n'\n!\n=".toList).lex).1 =
      .ok [⟨.identifier, ['x'], 0⟩, ⟨.character, "'\n'".toList, 2⟩, ⟨.operator, ['!'], 6⟩,
        ⟨.operator, ['='], 8⟩] ∧
    ((Lexer.new (Options.standard.inMode .lenient).skippingLineEnds []
      "x\n'\n'\n!\n=".toList).lex).2.diagnostics =
      [Fault.report "x\n'\n'\n!\n=".toList [] ⟨.unterminated .character, 2, 3⟩] ∧
    (⟨false, "x.plc".toList, some .lenient, true, .text, none⟩ :
        Command.TokensRequest).options [] =
      .ok (Options.standard.inMode .lenient).skippingLineEnds := by
  obtain ⟨wider, option, skipping⟩ := lex_skipping_more
  obtain ⟨tokens, diagnostics⟩ := wider (Options.standard.inMode .lenient) _ []
    "x\n'\n'\n!\n=".toList (skipping _)
  exact ⟨by decide +kernel, tokens.trans (by decide +kernel), diagnostics.trans (by decide +kernel),
    option ⟨false, "x.plc".toList, some .lenient, false, .text, none⟩ []⟩

end Lexis
