import Lexis.Proofs.Boundary

/-!
# Strict reading and spaces

A space ends every token of strict reading and begins none. So two texts with a space between them
are read one after the other, each as it is read alone. What strict reading gives out, in turn, can
be read by itself: whatever stood beside it in the source, it is a lexeme of its kind and begins with
no character that is skipped. Together this means that tokens may be printed with spaces between
them: they are read again as they were.

Results:
1. `Options.read_append_space`: strict reading of two texts with a space between them.
2. `lex_strict_append_space`: the same for lexing.
3. `Options.readable_of_mem`, `Options.read_readable`: a token of strict reading can be read by
   itself, and then is the only one.
4. `Options.read_joinSpaces`: strict reading of any such tokens with spaces between them.
5. `lex_strict_joinSpaces_lexemes`: lexing gives back the tokens whose lexemes are printed.
-/

namespace Lexis

def Text.joinSpaces (texts : List Text) : Text :=
  [' '].intercalate texts

theorem Text.joinSpaces_lexemes_cons (token next : Token) (tokens : List Token) :
    Text.joinSpaces ((token :: next :: tokens).map Token.lexeme) =
      token.lexeme ++ ' ' :: Text.joinSpaces ((next :: tokens).map Token.lexeme) := by
  simp [Text.joinSpaces]

def Token.spelled (t : Token) : Kind × Text := (t.kind, t.lexeme)

/-- A token that can be read by itself: its lexeme is one of its kind, and does not begin with a
character that is skipped. -/
structure Token.Readable (whitespace : Text) (t : Token) : Prop where
  spelled : Spelling t.kind t.lexeme
  black : ∀ c ∈ t.lexeme.head?, c ∉ whitespace

def Reading.alone (kind : Kind) (lexeme : Text) : Reading := ⟨[⟨kind, lexeme, 0⟩], [], none⟩

namespace Options

variable {o : Options} {a t : Text}

/-! ## Two texts with a space between them -/

/-- Strict reading of two texts with a space between them. -/
theorem read_append_space (strict : o.mode = .strict) (finished : (o.read a).refusal = none)
    (b : Text) :
    o.read (a ++ ' ' :: b) = (o.read a).append ((o.read b).shift (a.length + 1)) := by
  have fresh : ∀ q ∈ (' ' :: b).head?, q ∈ boundary := by
    rintro q head
    obtain rfl := Option.mem_some.mp head
    exact List.mem_cons_self
  rw [read_append strict fresh finished, read_white o.space_mem, Reading.shift_shift]

/-! ## Lexemes -/

theorem readable_of_mem (strict : o.mode = .strict) {token : Token}
    (mem : token ∈ (o.read t).tokens) : token.Readable o.whitespace := by
  obtain ⟨before, c, u, n, flaw, _, black, scan, lexeme, _⟩ := exists_scan_of_mem mem
  rw [strict] at scan
  refine ⟨lexeme ▸ (Scan.longest_of_token scan).1.2.1, ?_⟩
  intro d head
  rw [lexeme, List.take_succ_cons] at head
  obtain rfl := Option.mem_some.mp head
  exact black

theorem read_readable (strict : o.mode = .strict) {token : Token}
    (readable : token.Readable o.whitespace) :
    o.read token.lexeme = .alone token.kind token.lexeme := by
  obtain ⟨spelled, start⟩ := readable
  cases lexeme : token.lexeme with
  | nil => exact absurd lexeme spelled.ne_nil
  | cons c l =>
    rw [lexeme] at spelled start
    have black : c ∉ o.whitespace := start c rfl
    have scan := (Spelling.iff_scan (ne_space_of_not_mem black)).mp spelled
    rw [← strict] at scan
    rw [read_token black scan, List.drop_length, read_nil, List.take_succ_cons, List.take_length]
    rfl

/-- Lexemes that can be read by themselves are read with spaces between them, too. -/
theorem read_joinSpaces (strict : o.mode = .strict) {tokens : List Token}
    (readable : ∀ token ∈ tokens, token.Readable o.whitespace) :
    (o.read (Text.joinSpaces (tokens.map Token.lexeme))).refusal = none ∧
    (o.read (Text.joinSpaces (tokens.map Token.lexeme))).tokens.map Token.spelled =
      tokens.map Token.spelled := by
  induction tokens with
  | nil =>
    rw [List.map_nil, Text.joinSpaces, List.intercalate_nil, read_nil]
    exact ⟨rfl, rfl⟩
  | cons token tokens ih =>
    obtain ⟨first, others⟩ := List.forall_mem_cons.mp readable
    have alone := read_readable strict first
    cases tokens with
    | nil =>
      rw [List.map_singleton, Text.joinSpaces, List.intercalate_singleton, alone]
      exact ⟨rfl, rfl⟩
    | cons next tokens =>
      obtain ⟨finished, same⟩ := ih others
      have parts := read_append_space strict (congrArg Reading.refusal alone)
        (Text.joinSpaces ((next :: tokens).map Token.lexeme))
      rw [alone] at parts
      rw [Text.joinSpaces_lexemes_cons, parts]
      refine ⟨Option.map_eq_none_iff.mpr finished, ?_⟩
      refine Eq.trans ?_ (congrArg (List.cons token.spelled) same)
      simp [Reading.append, Reading.alone, Reading.shift, Token.spelled, Token.shift]

end Options

/-! ## Lexing -/

/-- Strict lexing is compositional at spaces. If it answers with tokens to a text, then to the text
with a space and another one behind it, it answers with these tokens and those of the other text, or
with the fault of the other text; what is behind the space is moved along. -/
theorem lex_strict_append_space (o : Options) (filename a b : Text) (tokens : List Token)
    (lexed : ((Lexer.new (o.inMode .strict) filename a).lex).1 = .ok tokens) :
    (∀ others, ((Lexer.new (o.inMode .strict) filename b).lex).1 = .ok others →
      ((Lexer.new (o.inMode .strict) filename (a ++ ' ' :: b)).lex).1 =
        .ok (tokens ++ others.map (Token.shift (a.length + 1)))) ∧
    (∀ fault, ((Lexer.new (o.inMode .strict) filename b).lex).1 = .error fault →
      ((Lexer.new (o.inMode .strict) filename (a ++ ' ' :: b)).lex).1 =
        .error (fault.shift (a.length + 1))) := by
  obtain ⟨finished, rfl⟩ := (Lexer.lex_new_eq_ok_iff _ _ _).mp lexed
  have parts := Options.read_append_space (o := o.inMode .strict) rfl finished b
  constructor
  · intro others lexed'
    obtain ⟨finished', rfl⟩ := (Lexer.lex_new_eq_ok_iff _ _ _).mp lexed'
    rw [Lexer.lex_new_eq_ok_iff, parts]
    exact ⟨Option.map_eq_none_iff.mpr finished', rfl⟩
  · intro fault refused
    rw [Lexer.lex_new_eq_error_iff] at refused ⊢
    rw [parts]
    exact congrArg (Option.map (Fault.shift (a.length + 1))) refused

theorem lex_strict_append_space_point :
    ((Lexer.new (Options.standard.inMode .strict) [] "1. 5".toList).lex).1 =
      .ok [⟨.integer, ['1'], 0⟩, ⟨.operator, ['.'], 1⟩, ⟨.integer, ['5'], 3⟩] ∧
    ((Lexer.new (Options.standard.inMode .strict) [] "1. 'ab".toList).lex).1 =
      .error ⟨.unterminated .character, 3, 5⟩ := by
  have lexed : ((Lexer.new (Options.standard.inMode .strict) [] "1.".toList).lex).1 =
      .ok [⟨.integer, ['1'], 0⟩, ⟨.operator, ['.'], 1⟩] := by decide +kernel
  exact ⟨(lex_strict_append_space .standard [] "1.".toList "5".toList _ lexed).1
      [⟨.integer, ['5'], 0⟩] (by decide +kernel),
    (lex_strict_append_space .standard [] "1.".toList "'ab".toList _ lexed).2
      ⟨.unterminated .character, 0, 2⟩ (by decide +kernel)⟩

/-- Printing the tokens of strict lexing and lexing them again gives the same kinds and lexemes in
the same order. -/
theorem lex_strict_joinSpaces_lexemes (o : Options) (filename source : Text) (tokens : List Token)
    (lexed : ((Lexer.new (o.inMode .strict) filename source).lex).1 = .ok tokens) :
    ∃ again, ((Lexer.new (o.inMode .strict) filename
        (Text.joinSpaces (tokens.map Token.lexeme))).lex).1 = .ok again ∧
      again.map Token.spelled = tokens.map Token.spelled := by
  obtain ⟨_, rfl⟩ := (Lexer.lex_new_eq_ok_iff _ _ _).mp lexed
  obtain ⟨finished, same⟩ := Options.read_joinSpaces (o := o.inMode .strict) rfl
    fun token mem => Options.readable_of_mem rfl mem
  exact ⟨_, (Lexer.lex_new_eq_ok_iff _ _ _).mpr ⟨finished, rfl⟩, same⟩

/-- Tokens that stood side by side in the source, most of them told apart by what follows them. -/
theorem lex_strict_joinSpaces_lexemes_adjacent :
    ((Lexer.new (Options.standard.inMode .strict) [] "007-x!==1.-2.5".toList).lex).1 =
      .ok [⟨.integer, ['0'], 0⟩, ⟨.integer, ['0'], 1⟩, ⟨.integer, ['7'], 2⟩,
        ⟨.operator, ['-'], 3⟩, ⟨.identifier, ['x'], 4⟩, ⟨.operator, "!=".toList, 5⟩,
        ⟨.operator, ['='], 7⟩, ⟨.integer, ['1'], 8⟩, ⟨.operator, ['.'], 9⟩,
        ⟨.decimal, "-2.5".toList, 10⟩] ∧
    ∃ again, ((Lexer.new (Options.standard.inMode .strict) []
        "0 0 7 - x != = 1 . -2.5".toList).lex).1 = .ok again ∧
      again.map Token.spelled = [(.integer, ['0']), (.integer, ['0']), (.integer, ['7']),
        (.operator, ['-']), (.identifier, ['x']), (.operator, "!=".toList), (.operator, ['=']),
        (.integer, ['1']), (.operator, ['.']), (.decimal, "-2.5".toList)] := by
  have lexed : ((Lexer.new (Options.standard.inMode .strict) [] "007-x!==1.-2.5".toList).lex).1 =
      .ok [⟨.integer, ['0'], 0⟩, ⟨.integer, ['0'], 1⟩, ⟨.integer, ['7'], 2⟩,
        ⟨.operator, ['-'], 3⟩, ⟨.identifier, ['x'], 4⟩, ⟨.operator, "!=".toList, 5⟩,
        ⟨.operator, ['='], 7⟩, ⟨.integer, ['1'], 8⟩, ⟨.operator, ['.'], 9⟩,
        ⟨.decimal, "-2.5".toList, 10⟩] := by decide +kernel
  exact ⟨lexed, lex_strict_joinSpaces_lexemes .standard [] _ _ lexed⟩

end Lexis
