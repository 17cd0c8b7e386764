import Lexis.Proofs.Agreement
import Lexis.Proofs.Tiling

/-!
# The tokens of the two modes

On a text that strict reading reads to its end, lenient reading finds the same identifiers, literals
and operators at the same places, as long as it keeps step with the escapes of the strings. It does
so on every text in which no two backslashes are just one character apart, for then no escape stands
right behind another (`StringLiteral.keepsStep_of_apart`).

Results:
1. `lex_modes_agree_outside_numbers`: on such texts only the digits, signs and points may be divided
   differently.
-/

namespace Lexis

open Alphabet

/-- No two backslashes are just one character apart. -/
def BackslashesApart (t : Text) : Prop :=
  ∀ i : Nat, ¬ (t[i]? = some '\\' ∧ t[i + 2]? = some '\\')

namespace BackslashesApart

variable {t : Text}

/-- The places to be looked at are those of the text. -/
theorem iff_forall_lt :
    BackslashesApart t ↔ ∀ i < t.length, ¬ (t[i]? = some '\\' ∧ t[i + 2]? = some '\\') := by
  refine ⟨fun h i _ => h i, fun h i backslashes => ?_⟩
  exact h i (List.getElem?_eq_some_iff.mp backslashes.1).1 backslashes

instance : Decidable (BackslashesApart t) := decidable_of_iff _ iff_forall_lt.symm

theorem tail {c : Char} (h : BackslashesApart (c :: t)) : BackslashesApart t :=
  fun i => h (i + 1)

theorem of_infix {u : Text} (h : BackslashesApart u) (piece : t <:+: u) : BackslashesApart t := by
  obtain ⟨before, behind, rfl⟩ := piece
  have standing {j : Nat} (at_j : t[j]? = some '\\') :
      (before ++ t ++ behind)[before.length + j]? = some '\\' := by
    have inside : j < t.length := (List.getElem?_eq_some_iff.mp at_j).1
    rwa [List.append_assoc, List.getElem?_append_right (Nat.le_add_right _ _),
      Nat.add_sub_cancel_left, List.getElem?_append_left inside]
  rintro i ⟨first, second⟩
  exact h (before.length + i) ⟨standing first, standing second⟩

end BackslashesApart

/-- With the backslashes apart, lenient reading keeps step with the escapes: none stands right behind
another, so a backslash is never taken as it is. -/
theorem StringLiteral.keepsStep_of_apart {pace : Pace} {t : Text} (apart : BackslashesApart t)
    (first : pace = .level ∨ pace = .escaped ∧ t.head? ≠ some '\\') :
    keepsStep pace t = true := by
  have ne_behind : pace ≠ .behind := by
    rcases first with rfl | ⟨rfl, _⟩ <;> nofun
  fun_induction keepsStep pace t with
  | case1 | case4 => rfl
  | case2 => exact decide_eq_true ne_behind
  | case3 => exact decide_eq_true (first.imp_right And.left)
  | case5 pace e t letter next step _ _ ih =>
    obtain rfl : pace = .level := first.resolve_right fun h => h.2 rfl
    cases step
    refine ih apart.tail.tail (.inr ⟨rfl, fun head => ?_⟩) nofun
    obtain ⟨r, rfl⟩ := List.head?_eq_some_iff.mp head
    exact apart 0 ⟨rfl, rfl⟩
  | case6 pace e t letter step =>
    obtain rfl : pace = .level := first.resolve_right fun h => h.2 rfl
    cases step
  | case7 => exact decide_eq_true ne_behind
  | case8 pace c t quote line backslash next step ih =>
    rcases first with rfl | ⟨rfl, _⟩ <;> cases step <;> exact ih apart.tail (.inl rfl) nofun
  | case9 pace c t quote line backslash step =>
    rcases first with rfl | ⟨rfl, _⟩ <;> cases step

/-- Where strict lexing answers with tokens and no two backslashes of the source are just one
character apart, lenient lexing answers too, and with the same tokens but for the numbers, the minus
signs and the points. -/
theorem lex_modes_agree_outside_numbers (o : Options) (filename source : Text)
    (tokens : List Token) (apart : BackslashesApart source)
    (strict : ((Lexer.new (o.inMode .strict) filename source).lex).1 = .ok tokens) :
    ∃ others, ((Lexer.new (o.inMode .lenient) filename source).lex).1 = .ok others ∧
      (others.filter fun t => !t.isNumeric) = tokens.filter fun t => !t.isNumeric := by
  obtain ⟨finished, rfl⟩ := (Lexer.lex_new_eq_ok_iff _ _ _).mp strict
  refine ⟨_, (Lexer.lex_new_eq_ok_iff _ _ _).mpr ⟨o.refusal_lenient source, rfl⟩, ?_⟩
  refine ((o.follows_iff source).mpr ⟨?_, by simp [finished]⟩).whole finished
  intro token mem _
  -- the token stands in the source, so its backslashes are apart too
  have tiling := (o.inMode .strict).tiling_read source finished 0
  rw [Reading.shift_zero] at tiling
  obtain ⟨before, behind, c, l, eq, lexeme, _⟩ := tiling.placed mem
  have piece : c :: l <:+: source := ⟨before, behind, by rw [eq, List.append_assoc]⟩
  rw [lexeme]
  exact StringLiteral.keepsStep_of_apart (apart.of_infix piece).tail (.inl rfl)

/-- The modes put the points of `-.1.2.3` into different numbers and meet again behind them. -/
theorem lex_modes_agree_outside_numbers_points :
    BackslashesApart "-.1.2.3 \"\\\\a\" x-1".toList ∧
    ((Lexer.new (Options.standard.inMode .strict) [] "-.1.2.3 \"\\\\a\" x-1".toList).lex).1 =
      .ok [⟨.operator, ['-'], 0⟩, ⟨.operator, ['.'], 1⟩, ⟨.decimal, "1.2".toList, 2⟩,
        ⟨.operator, ['.'], 5⟩, ⟨.integer, ['3'], 6⟩, ⟨.string, "\"\\\\a\"".toList, 8⟩,
        ⟨.identifier, "x-1".toList, 14⟩] ∧
    ∃ others, ((Lexer.new (Options.standard.inMode .lenient) []
        "-.1.2.3 \"\\\\a\" x-1".toList).lex).1 = .ok others ∧
      (others.filter fun t => !t.isNumeric) =
        [⟨.string, "\"\\\\a\"".toList, 8⟩, ⟨.identifier, "x-1".toList, 14⟩] := by
  have apart : BackslashesApart "-.1.2.3 \"\\\\a\" x-1".toList := by decide +kernel
  have strict : ((Lexer.new (Options.standard.inMode .strict) []
      "-.1.2.3 \"\\\\a\" x-1".toList).lex).1 = .ok [⟨.operator, ['-'], 0⟩, ⟨.operator, ['.'], 1⟩,
        ⟨.decimal, "1.2".toList, 2⟩, ⟨.operator, ['.'], 5⟩, ⟨.integer, ['3'], 6⟩,
        ⟨.string, "\"\\\\a\"".toList, 8⟩, ⟨.identifier, "x-1".toList, 14⟩] := by decide +kernel
  obtain ⟨others, lenient, same⟩ := lex_modes_agree_outside_numbers .standard [] _ _ apart strict
  exact ⟨apart, strict, others, lenient, same.trans (by decide +kernel)⟩

end Lexis
