import Lexis.Proofs.Reading

/-!
# Tokens and the gaps between them

A text that is read to its end is tiled by its tokens: they stand in it one behind the other, each
as long as its lexeme, and what is left between them is made of characters that are skipped. This
holds in either mode and of malformed literals too, however much of the text lenient reading makes
of them.

Results:
1. `Options.tiling_read`: what is read to its end is tiled by its tokens.
2. `Tiling.placed`, `Tiling.pairwise`, `Tiling.skipped_of_outside`: where the tokens of a tiling
   stand, and what stands outside them.
3. `Tiling.interleave_gaps`: the gaps and the lexemes by turns are the text.
4. `lex_tiles_source`: all of this, for lexing.
-/

namespace Lexis

/-- `Tiling whitespace n t tokens`: the text, which begins at offset `n`, is made of the lexemes of
the tokens in their order, each behind a gap of characters that are skipped, and of a last gap. -/
inductive Tiling (whitespace : Text) : Nat → Text → List Token → Prop
  | finished {n : Nat} {gap : Text} : gap ⊆ whitespace → Tiling whitespace n gap []
  | token {n : Nat} {gap l t : Text} {c : Char} {kind : Kind} {tokens : List Token} :
      gap ⊆ whitespace → c ∉ whitespace →
      Tiling whitespace (n + gap.length + (c :: l).length) t tokens →
      Tiling whitespace n (gap ++ (c :: l ++ t))
        (⟨kind, c :: l, (n + gap.length : Nat)⟩ :: tokens)

/-- The pieces of a text that stand before, between and behind the tokens, from offset `n` on. -/
def gaps (source : Text) (n : Nat) : List Token → List Text
  | [] => [source.drop n]
  | token :: tokens =>
    source.extract n token.start.toNat :: gaps source token.stop.toNat tokens

/-- Pieces of text and the lexemes of tokens by turns, the pieces first. -/
def interleave : List Text → List Token → Text
  | piece :: pieces, token :: tokens => piece ++ token.lexeme ++ interleave pieces tokens
  | pieces, _ => pieces.flatten

variable {whitespace t : Text} {n : Nat} {tokens : List Token}

namespace Tiling

theorem skip {c : Char} (white : c ∈ whitespace) (h : Tiling whitespace (n + 1) t tokens) :
    Tiling whitespace n (c :: t) tokens := by
  cases h with
  | finished gap => exact .finished (List.cons_subset.mpr ⟨white, gap⟩)
  | @token _ g l t d kind tokens gap black rest =>
    have offset : n + 1 + g.length = n + (c :: g).length := by
      rw [List.length_cons, Nat.add_right_comm, Nat.add_assoc]
    rw [offset] at rest ⊢
    have widened : Tiling whitespace n (c :: g ++ (d :: l ++ t))
        (⟨kind, d :: l, (n + (c :: g).length : Nat)⟩ :: tokens) :=
      .token (List.cons_subset.mpr ⟨white, gap⟩) black rest
    exact widened

/-! ## Where the tokens stand -/

theorem placed (h : Tiling whitespace n t tokens) {token : Token} (mem : token ∈ tokens) :
    ∃ before behind c l, t = before ++ (c :: l ++ behind) ∧ token.lexeme = c :: l ∧
      c ∉ whitespace ∧ token.start = (n + before.length : Nat) := by
  induction h with
  | finished => exact absurd mem List.not_mem_nil
  | @token n gap l t c kind tokens _ black rest ih =>
    rcases List.mem_cons.mp mem with rfl | mem
    · exact ⟨gap, t, c, l, rfl, rfl, black, rfl⟩
    · obtain ⟨before, behind, d, m, rfl, lexeme, black', start⟩ := ih mem
      refine ⟨gap ++ (c :: l ++ before), behind, d, m, by simp, lexeme, black', ?_⟩
      rw [start, List.length_append, List.length_append, Nat.add_assoc, Nat.add_assoc]

theorem le_start (h : Tiling whitespace n t tokens) {token : Token} (mem : token ∈ tokens) :
    (n : Int) ≤ token.start := by
  obtain ⟨before, _, _, _, _, _, _, start⟩ := h.placed mem
  omega

theorem pairwise (h : Tiling whitespace n t tokens) :
    tokens.Pairwise fun a b => a.stop ≤ b.start := by
  induction h with
  | finished => exact .nil
  | @token n gap l t c kind tokens _ _ rest ih =>
    refine .cons ?_ ih
    intro other mem
    exact_mod_cast rest.le_start mem

theorem skipped_of_outside (h : Tiling whitespace n t tokens) {i : Nat} {x : Char}
    (at_i : t[i]? = some x)
    (outside : ∀ token ∈ tokens, ¬ (token.start ≤ (n + i : Nat) ∧ (n + i : Nat) < token.stop)) :
    x ∈ whitespace := by
  induction h generalizing i with
  | finished gap => exact gap (List.mem_of_getElem? at_i)
  | @token n gap l t c kind tokens white _ _ ih =>
    obtain ⟨notHere, notBehind⟩ := List.forall_mem_cons.mp outside
    by_cases inGap : i < gap.length
    · rw [List.getElem?_append_left inGap] at at_i
      exact white (List.mem_of_getElem? at_i)
    · -- the place is behind the first token, since it is not in it
      have behind : gap.length + (c :: l).length ≤ i := by
        simp only [Token.stop] at notHere
        omega
      rw [List.getElem?_append_right (by omega), List.getElem?_append_right (by omega)] at at_i
      refine ih at_i ?_
      intro token mem
      have place : n + gap.length + (c :: l).length + (i - gap.length - (c :: l).length) = n + i := by
        omega
      rw [place]
      exact notBehind token mem

/-! ## The text from its pieces -/

theorem extract_between (before piece behind : Text) :
    (before ++ (piece ++ behind)).extract before.length (before.length + piece.length) = piece := by
  simp [List.extract_eq_take_drop]

theorem gaps_append (passed : Text) (h : Tiling whitespace passed.length t tokens) :
    (∀ gap ∈ gaps (passed ++ t) passed.length tokens, gap ⊆ whitespace) ∧
      interleave (gaps (passed ++ t) passed.length tokens) tokens = t := by
  generalize offset : passed.length = n at h
  induction h generalizing passed with
  | finished white =>
    subst offset
    simpa [gaps, interleave] using white
  | @token n gap l t c kind tokens white _ _ ih =>
    subst offset
    -- behind the first token, all that stands before is passed
    have rest := ih (passed ++ gap ++ (c :: l)) (by simp [Nat.add_assoc])
    have source : passed ++ gap ++ (c :: l) ++ t = passed ++ (gap ++ (c :: l ++ t)) := by simp
    have piece := extract_between passed gap (c :: l ++ t)
    rw [source] at rest
    have stop : Token.stop ⟨kind, c :: l, (passed.length + gap.length : Nat)⟩ =
        (passed.length + gap.length + (c :: l).length : Nat) := by
      simp [Token.stop]
    simp only [gaps, interleave, stop, Int.toNat_natCast, piece]
    refine ⟨List.forall_mem_cons.mpr ⟨white, rest.1⟩, ?_⟩
    rw [rest.2, List.append_assoc]

/-- The gaps and the lexemes by turns are the text, and the gaps are skipped. -/
theorem interleave_gaps (h : Tiling whitespace 0 t tokens) :
    (∀ gap ∈ gaps t 0 tokens, gap ⊆ whitespace) ∧ interleave (gaps t 0 tokens) tokens = t :=
  gaps_append [] h

end Tiling

/-! ## Reading -/

/-- What is read to its end is tiled by its tokens. -/
theorem Options.tiling_read (o : Options) (t : Text) (finished : (o.read t).refusal = none)
    (n : Nat) : Tiling o.whitespace n t ((o.read t).shift n).tokens := by
  induction t using o.read_induction generalizing n with
  | nil =>
    rw [read_nil]
    exact .finished (List.nil_subset _)
  | white c t white ih =>
    rw [read_white white] at finished ⊢
    rw [Reading.shift_shift]
    exact (ih (Option.map_eq_none_iff.mp finished) (n + 1)).skip white
  | token c t kind further flaw black scan le ih =>
    rw [read_token black scan] at finished ⊢
    have rest := ih (Option.map_eq_none_iff.mp finished) (n + (further + 1))
    have length : (c :: t.take further).length = further + 1 := by simp [le]
    rw [← length] at rest
    have tiled : Tiling o.whitespace n ([] ++ (c :: t.take further ++ t.drop further))
        (⟨kind, c :: t.take further, (n + ([] : Text).length : Nat)⟩ :: _) :=
      .token (List.nil_subset _) black rest
    rw [List.nil_append, List.cons_append, List.take_append_drop] at tiled
    rw [Reading.shift_cons, Reading.shift_shift]
    simpa [Reading.cons, Token.shift, length] using tiled
  | refused c t flaw black scan =>
    rw [read_refused black scan] at finished
    cases finished

/-- Lexing loses nothing and adds nothing. The lexeme of a token is not empty, is the piece of the
source that the offsets of the token name, and does not begin with a character that is skipped; the
tokens stand one behind the other; what stands outside them is skipped; and the gaps and the lexemes
by turns are the source. -/
theorem lex_tiles_source (o : Options) (filename source : Text) (tokens : List Token)
    (lexed : ((Lexer.new o filename source).lex).1 = .ok tokens) :
    (∀ token ∈ tokens, token.lexeme ≠ [] ∧ 0 ≤ token.start ∧ token.stop ≤ source.length ∧
      token.lexeme = source.extract token.start.toNat token.stop.toNat ∧
      ∀ c ∈ token.lexeme.head?, c ∉ o.whitespace) ∧
    (tokens.Pairwise fun a b => a.stop ≤ b.start) ∧
    (∀ (i : Nat) (inside : i < source.length),
      (∀ token ∈ tokens, ¬ (token.start ≤ i ∧ i < token.stop)) → source[i] ∈ o.whitespace) ∧
    (∀ gap ∈ gaps source 0 tokens, gap ⊆ o.whitespace) ∧
    interleave (gaps source 0 tokens) tokens = source := by
  obtain ⟨finished, rfl⟩ := (Lexer.lex_new_eq_ok_iff _ _ _).mp lexed
  have tiling := o.tiling_read source finished 0
  rw [Reading.shift_zero] at tiling
  refine ⟨?_, tiling.pairwise, ?_, tiling.interleave_gaps⟩
  · intro token mem
    obtain ⟨before, behind, c, l, eq, lexeme, black, start⟩ := tiling.placed mem
    have stop : token.stop = (before.length + (c :: l).length : Nat) := by
      simp [Token.stop, start, lexeme]
    refine ⟨by simp [lexeme], by omega, ?_, ?_, by simpa [lexeme] using black⟩
    · rw [stop, eq, Int.ofNat_le, List.length_append, List.length_append, ← Nat.add_assoc]
      exact Nat.le_add_right _ _
    · rw [stop, start, lexeme, eq, Int.toNat_natCast, Int.toNat_natCast, Nat.zero_add]
      exact (Tiling.extract_between before (c :: l) behind).symm
  · intro i inside outside
    refine tiling.skipped_of_outside (List.getElem?_eq_getElem inside) ?_
    rwa [Nat.zero_add]

/-- Two malformed literals, the second cut short before a letter that makes no escape. -/
theorem lex_tiles_source_malformed :
    ((Lexer.new (Options.standard.inMode .lenient) [] "'x  \"\\q\t".toList).lex).1 =
      .ok [⟨.character, "'x".toList, 0⟩, ⟨.string, "\"\\".toList, 4⟩,
        ⟨.identifier, "q".toList, 6⟩] ∧
    (∀ gap ∈ [[], "  ".toList, [], "\t".toList], gap ⊆ [' ', '\t']) ∧
    interleave [[], "  ".toList, [], "\t".toList]
      [⟨.character, "'x".toList, 0⟩, ⟨.string, "\"\\".toList, 4⟩, ⟨.identifier, "q".toList, 6⟩] =
      "'x  \"\\q\t".toList := by
  have lexed : ((Lexer.new (Options.standard.inMode .lenient) [] "'x  \"\\q\t".toList).lex).1 =
      .ok [⟨.character, "'x".toList, 0⟩, ⟨.string, "\"\\".toList, 4⟩,
        ⟨.identifier, "q".toList, 6⟩] := by decide +kernel
  have tiles := lex_tiles_source _ _ _ _ lexed
  exact ⟨lexed, tiles.2.2.2⟩

end Lexis
