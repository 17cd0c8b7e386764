import Lexis.Proofs.Boundary

/-!
# Strict reading stops at the first bad character

A fault of strict reading is placed exactly: what stands before the place can be completed to a text
that is read to its end, and with the character at the place nothing can. A fault behind the last
character of the text says only that more is needed.

Results:
1. `Scan.exists_completion`: a literal cut at the place to be blamed can be completed.
2. `Scan.refused_of_take`: whatever follows the character to be blamed, the flaw is the same.
3. `lex_strict_prefix_property`: both, for strict lexing of whole texts.
-/

namespace Lexis

open Alphabet

variable {t u : Text} {f : Flaw}

namespace StringLiteral

variable {depth : Nat}

/-- What stands before the place to be blamed is made of items and perhaps a backslash. -/
theorem items_of_refused (h : strict depth t = .refused f) :
    ∃ items : List Text, (∀ item ∈ items, Item ['"', '\\', '\n', '\r'] item) ∧
      (t.take (f.depth - depth) = items.flatten ∨
        t.take (f.depth - depth) = items.flatten ++ ['\\']) := by
  fun_induction strict depth t with
  | case2 => cases h
  | case1 | case3 =>
    cases h
    exact ⟨[], by simp, .inl (by simp)⟩
  | case4 | case6 =>
    cases h
    exact ⟨[], by simp, .inr (by simp)⟩
  | case5 depth e t letter _ _ ih =>
    have le : depth + 2 ≤ f.depth := le_of_strict_refused h
    obtain ⟨items, standing, read⟩ := ih h
    refine ⟨['\\', e] :: items, ?_, ?_⟩
    · simpa using ⟨.escape (mem_escapeLetters_iff.mp letter), standing⟩
    · rw [show f.depth - depth = f.depth - (depth + 2) + 1 + 1 by omega]
      simpa using read
  | case7 depth c t quote line backslash ih =>
    have le : depth + 1 ≤ f.depth := le_of_strict_refused h
    obtain ⟨items, standing, read⟩ := ih h
    refine ⟨[c] :: items, ?_, ?_⟩
    · have plain : c ∉ ['"', '\\', '\n', '\r'] := by simp_all [lineTerminators]
      simpa using ⟨.plain plain, standing⟩
    · rw [show f.depth - depth = f.depth - (depth + 1) + 1 by omega]
      simpa using read

/-- A literal cut at the place to be blamed can be completed. -/
theorem exists_completion (h : strict 1 t = .refused f) :
    ∃ more, Spelling .string ('"' :: (t.take (f.depth - 1) ++ more)) := by
  obtain ⟨items, standing, read | read⟩ := items_of_refused h
  · rw [read]
    exact ⟨['"'], .string standing⟩
  · rw [read]
    have standing' : ∀ item ∈ items ++ [['\\', 'n']], Item ['"', '\\', '\n', '\r'] item := by
      intro item mem
      rcases List.mem_append.mp mem with mem | mem
      · exact standing item mem
      · obtain rfl := List.mem_singleton.mp mem
        exact .escape (by decide)
    exact ⟨['n', '"'], by simpa using Spelling.string standing'⟩

/-- What is read up to the character to be blamed decides. -/
theorem refused_of_take (h : strict depth t = .refused f) (inside : f.depth < depth + t.length)
    (pre : t.take (f.depth + 1 - depth) <+: u) : strict depth u = .refused f := by
  fun_induction strict depth t generalizing u with
  | case1 | case4 =>
    cases h
    exact absurd inside (Nat.lt_irrefl _)
  | case2 => cases h
  | case3 depth c t quote line =>
    cases h
    rw [Nat.add_sub_cancel_left, List.take_succ_cons] at pre
    obtain ⟨u, rfl, _⟩ := List.cons_prefix_iff.mp pre
    rw [strict.eq_def]
    simp [quote, line]
  | case5 depth e t letter _ _ ih =>
    have le : depth + 2 ≤ f.depth := le_of_strict_refused h
    rw [show f.depth + 1 - depth = f.depth + 1 - (depth + 2) + 1 + 1 by omega, List.take_succ_cons,
      List.take_succ_cons] at pre
    obtain ⟨v, rfl, within⟩ := List.cons_prefix_iff.mp pre
    obtain ⟨w, rfl, behind⟩ := List.cons_prefix_iff.mp within
    rw [strict_escape letter]
    refine ih h ?_ behind
    simp only [List.length_cons] at inside
    omega
  | case6 depth e t letter =>
    cases h
    rw [show depth + 1 + 1 - depth = 2 by omega] at pre
    obtain ⟨v, rfl, within⟩ := List.cons_prefix_iff.mp pre
    obtain ⟨w, rfl, _⟩ := List.cons_prefix_iff.mp within
    rw [strict.eq_def]
    simp [letter, lineTerminators]
  | case7 depth c t quote line backslash ih =>
    have le : depth + 1 ≤ f.depth := le_of_strict_refused h
    rw [show f.depth + 1 - depth = f.depth + 1 - (depth + 1) + 1 by omega,
      List.take_succ_cons] at pre
    obtain ⟨v, rfl, behind⟩ := List.cons_prefix_iff.mp pre
    rw [strict_plain (by simp_all [lineTerminators])]
    refine ih h ?_ behind
    simp only [List.length_cons] at inside
    omega

end StringLiteral

namespace CharacterLiteral

variable {depth : Nat}

theorem close_eq_refused_iff : close depth t = .refused f ↔
    t.head? ≠ some '\'' ∧ f = ⟨.unterminated .character, depth⟩ := by
  unfold close
  split
  · simp
  · next no =>
    have open' : t.head? ≠ some '\'' := by
      intro head
      obtain ⟨r, rfl⟩ := List.head?_eq_some_iff.mp head
      exact no r rfl
    simp [open', eq_comm]

/-- What stands before the place to be blamed is nothing, a backslash or an item. -/
theorem item_of_refused (h : strict t = .refused f) :
    0 < f.depth ∧ (t.take (f.depth - 1) = [] ∨ t.take (f.depth - 1) = ['\\'] ∨
      Item ['\'', '\\', '\n', '\r', '\t', '\x08', '\x0c'] (t.take (f.depth - 1))) := by
  unfold strict at h
  split at h
  · cases h
    exact ⟨Nat.one_pos, .inl rfl⟩
  split at h
  · cases h
    exact ⟨Nat.one_pos, .inl rfl⟩
  split at h
  · cases h
    exact ⟨Nat.one_pos, .inl rfl⟩
  split at h
  · cases h
    exact ⟨Nat.one_pos, .inl rfl⟩
  split at h
  · next backslash =>
    subst backslash
    split at h
    · cases h
      exact ⟨Nat.two_pos, .inr (.inl rfl)⟩
    split at h
    · next letter =>
      obtain ⟨_, rfl⟩ := close_eq_refused_iff.mp h
      exact ⟨Nat.succ_pos 2, .inr (.inr (.escape (mem_escapeLetters_iff.mp letter)))⟩
    · cases h
      exact ⟨Nat.two_pos, .inr (.inl rfl)⟩
  · obtain ⟨_, rfl⟩ := close_eq_refused_iff.mp h
    refine ⟨Nat.two_pos, .inr (.inr (.plain ?_))⟩
    simp_all [lineTerminators, controlChars]

theorem exists_completion (h : strict t = .refused f) :
    ∃ more, Spelling .character ('\'' :: (t.take (f.depth - 1) ++ more)) := by
  obtain ⟨_, read | read | item⟩ := item_of_refused h
  · rw [read]
    exact ⟨['a', '\''], .character (.plain (by decide))⟩
  · rw [read]
    exact ⟨['n', '\''], .character (.escape (by decide))⟩
  · exact ⟨['\''], .character item⟩

theorem close_of_take (h : close depth t = .refused f) (ne : t ≠ []) (pre : t.take 1 <+: u) :
    close depth u = .refused f := by
  obtain ⟨d, t, rfl⟩ := List.exists_cons_of_ne_nil ne
  obtain ⟨v, rfl, _⟩ := List.cons_prefix_iff.mp pre
  rw [close_eq_refused_iff] at h ⊢
  exact h

theorem refused_of_take (h : strict t = .refused f) (inside : f.depth ≤ t.length)
    (pre : t.take f.depth <+: u) : strict u = .refused f := by
  have ne {w : Text} (le : 1 ≤ w.length) : w ≠ [] := List.ne_nil_of_length_pos le
  unfold strict at h
  split at h
  · cases h
    exact absurd inside (by decide)
  next c t =>
  split at h
  · next quote =>
    cases h
    obtain ⟨v, rfl, _⟩ := List.cons_prefix_iff.mp pre
    simp only [strict, if_pos quote]
  split at h
  · next quote line =>
    cases h
    obtain ⟨v, rfl, _⟩ := List.cons_prefix_iff.mp pre
    simp only [strict, if_neg quote, if_pos line]
  split at h
  · next quote line control =>
    cases h
    obtain ⟨v, rfl, _⟩ := List.cons_prefix_iff.mp pre
    simp only [strict, if_neg quote, if_neg line, if_pos control]
  split at h
  · next quote line control backslash =>
    split at h
    · cases h
      exact absurd inside (Nat.lt_irrefl 1)
    split at h
    · next e t letter =>
      obtain ⟨_, rfl⟩ := close_eq_refused_iff.mp h
      obtain ⟨v, rfl, within⟩ := List.cons_prefix_iff.mp pre
      obtain ⟨w, rfl, behind⟩ := List.cons_prefix_iff.mp within
      simp only [strict, if_neg quote, if_neg line, if_neg control, if_pos backslash, if_pos letter]
      exact close_of_take h (ne (by simpa using inside)) behind
    · next e t letter =>
      cases h
      obtain ⟨v, rfl, within⟩ := List.cons_prefix_iff.mp pre
      obtain ⟨w, rfl, _⟩ := List.cons_prefix_iff.mp within
      simp only [strict, if_neg quote, if_neg line, if_neg control, if_pos backslash, if_neg letter]
  · next quote line control backslash =>
    obtain ⟨_, rfl⟩ := close_eq_refused_iff.mp h
    obtain ⟨v, rfl, behind⟩ := List.cons_prefix_iff.mp pre
    simp only [strict, if_neg quote, if_neg line, if_neg control, if_neg backslash]
    exact close_of_take h (ne (by simpa using inside)) behind

end CharacterLiteral

/-! ## Literals -/

namespace Scan

variable {c : Char}

/-- A text that is refused begins with a literal, and one that is completed at the place to be
blamed is read as a single literal. -/
theorem exists_completion (space : c ≠ ' ') (h : ofText .strict c t = .refused f) :
    c ∈ boundary ∧ 0 < f.depth ∧ ∃ kind more,
      ofText .strict c (t.take (f.depth - 1) ++ more) =
        .token kind (t.take (f.depth - 1) ++ more).length none := by
  rcases quote_of_refused space h with rfl | rfl
  · rw [ofText_quote (.inl rfl)] at h
    obtain ⟨more, spelled⟩ := CharacterLiteral.exists_completion h
    refine ⟨by decide, (CharacterLiteral.item_of_refused h).1, .character, more, ?_⟩
    rw [ofText_quote (.inl rfl)]
    exact (character_of_quote spelled List.prefix_rfl).2
  · rw [ofText_double] at h
    obtain ⟨more, spelled⟩ := StringLiteral.exists_completion h
    refine ⟨by decide, StringLiteral.le_of_strict_refused h, .string, more, ?_⟩
    rw [ofText_double]
    exact (string_of_quote spelled List.prefix_rfl).2

theorem refused_of_take (space : c ≠ ' ') (h : ofText .strict c t = .refused f)
    (inside : f.depth ≤ t.length) (pre : t.take f.depth <+: u) :
    ofText .strict c u = .refused f := by
  rcases quote_of_refused space h with rfl | rfl
  · rw [ofText_quote (.inl rfl)] at h ⊢
    exact CharacterLiteral.refused_of_take h inside pre
  · rw [ofText_double] at h ⊢
    refine StringLiteral.refused_of_take h ?_ pre
    omega

end Scan

/-! ## Whole texts -/

namespace Options

variable {o : Options} {a : Text} {c : Char}

theorem refusal_append (strict : o.mode = .strict) (finished : (o.read a).refusal = none)
    (fresh : c ∈ boundary) : (o.read (a ++ c :: t)).refusal =
      (o.read (c :: t)).refusal.map (Fault.shift a.length) := by
  have parts := read_append (r := c :: t) strict (by simpa using fresh) finished
  exact congrArg Reading.refusal parts

end Options

/-- Strict lexing stops at the first bad character. The place of its fault lies in the text or at
its end; what stands before the place can be completed to a text that strict lexing answers with
tokens; and with the character at the place, it answers with the same fault whatever follows. -/
theorem lex_strict_prefix_property (o : Options) (filename source : Text) (fault : Fault)
    (refused : ((Lexer.new (o.inMode .strict) filename source).lex).1 = .error fault) :
    fault.offset ≤ source.length ∧
    (∃ more tokens, ((Lexer.new (o.inMode .strict) filename
      (source.take fault.offset ++ more)).lex).1 = .ok tokens) ∧
    (fault.offset < source.length → ∀ other : Text,
      other.take (fault.offset + 1) = source.take (fault.offset + 1) →
      ((Lexer.new (o.inMode .strict) filename other).lex).1 = .error fault) := by
  rw [Lexer.lex_new_eq_error_iff] at refused
  obtain ⟨a, c, u, flaw, rfl, finished, black, scan, rfl⟩ :=
    Options.exists_of_refused (o := o.inMode .strict) rfl refused
  -- what stands before the faulty literal is read the same in all the texts to come
  have space := Options.ne_space_of_not_mem black
  obtain ⟨quote, pos, kind, more, completed⟩ := Scan.exists_completion space scan
  have offset : (flaw.place a.length).offset = a.length + flaw.depth := rfl
  rw [offset]
  refine ⟨?_, ⟨more, ?_⟩, fun inside other same => ?_⟩
  · rw [List.length_append, List.length_cons]
    exact Nat.add_le_add_left (Scan.depth_le_of_refused scan) _
  · have cut : (a ++ c :: u).take (a.length + flaw.depth) ++ more =
        a ++ c :: (u.take (flaw.depth - 1) ++ more) := by
      obtain ⟨d, depth⟩ := Nat.exists_eq_succ_of_ne_zero (Nat.ne_of_gt pos)
      simp [List.take_length_add_append, depth]
    rw [cut]
    refine ⟨_, (Lexer.lex_new_eq_ok_iff _ _ _).mpr ⟨?_, rfl⟩⟩
    rw [Options.refusal_append rfl finished quote,
      Options.read_token (o := o.inMode .strict) black completed, List.drop_length,
      Options.read_nil]
    rfl
  · have within : a ++ c :: u.take flaw.depth <+: other := by
      have cut : (a ++ c :: u).take (a.length + flaw.depth + 1) = a ++ c :: u.take flaw.depth := by
        rw [Nat.add_assoc, List.take_length_add_append, List.take_succ_cons]
      rw [← cut, ← same]
      exact List.take_prefix _ _
    obtain ⟨rest, rfl⟩ := within
    have scan' : Scan.ofText .strict c (u.take flaw.depth ++ rest) = .refused flaw := by
      refine Scan.refused_of_take space scan ?_ (List.prefix_append _ _)
      rw [List.length_append, List.length_cons] at inside
      omega
    rw [Lexer.lex_new_eq_error_iff, List.append_assoc, List.cons_append,
      Options.refusal_append rfl finished quote,
      Options.read_refused (o := o.inMode .strict) black scan']
    exact congrArg some (Flaw.place_add a.length 0 flaw).symm

/-- The text `x = 'ab'` goes wrong at the `b`, whatever follows. -/
theorem lex_strict_prefix_property_character :
    ((Lexer.new (Options.standard.inMode .strict) [] "x = 'ab'".toList).lex).1 =
      .error ⟨.unterminated .character, 4, 6⟩ ∧
    ∀ other : Text, other.take 7 = "x = 'ab".toList →
      ((Lexer.new (Options.standard.inMode .strict) [] other).lex).1 =
        .error ⟨.unterminated .character, 4, 6⟩ :=
  ⟨by decide +kernel,
    (lex_strict_prefix_property .standard [] "x = 'ab'".toList ⟨.unterminated .character, 4, 6⟩
      (by decide +kernel)).2.2 (by decide)⟩

end Lexis
