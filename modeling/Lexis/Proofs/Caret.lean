import Lexis.Proofs.CorrectPrefix
import Lexis.Proofs.Layout
import Mathlib.Data.List.DropRight

/-!
# The caret stands under the character to be blamed

The location of a fault and the line of the source that is shown are found apart from each other,
and the line loses the carriage returns at its end. The caret is in its place all the same if no
carriage return stands right before the character to be blamed (`sourceLine_eq`). In strict reading
none does: what has been read of the faulty literal begins with a quote and holds no line end
(`Scan.not_line_of_refused`).

Results:
1. `Location.exists_lineSoFar`: the part of the line that stands before a place.
2. `sourceLine_eq`: that part stands in the line that is shown, if no carriage return ends it.
3. `lex_strict_caret`: the location, the line that is shown and the caret of a strict fault.
-/

namespace Lexis

open Alphabet

/-! ## The line of a place -/

theorem Location.exists_lineSoFar (before : Text) :
    ∃ above, before = above ++ lineSoFar before ∧ (above = [] ∨ above.getLast? = some '\n') := by
  have parts : before.rdropWhile (· ≠ '\n') ++ lineSoFar before = before :=
    List.rdropWhile_append_rtakeWhile
  refine ⟨_, parts.symm, ?_⟩
  by_cases none : before.rdropWhile (· ≠ '\n') = []
  · exact .inl none
  · have last := List.rdropWhile_last_not _ _ none
    rw [List.getLast?_eq_some_getLast none]
    exact .inr (by simpa using last)

theorem withoutReturns_append {line : Text} (solid : line.getLast? ≠ some '\r') (rest : Text) :
    withoutReturns (line ++ rest) = line ++ withoutReturns rest := by
  have kept : line.reverse.dropWhile (· = '\r') = line.reverse := by
    cases eq : line.reverse with
    | nil => rfl
    | cons c l =>
      have last : line.getLast? = some c := by rw [← List.head?_reverse, eq, List.head?_cons]
      have other : c ≠ '\r' := fun h => solid (h ▸ last)
      exact List.dropWhile_cons_of_neg (by simpa using other)
  unfold withoutReturns
  rw [List.reverse_append, List.dropWhile_append]
  split
  · next none =>
    rw [List.isEmpty_iff.mp none, kept, List.reverse_reverse, List.reverse_nil, List.append_nil]
  · rw [List.reverse_append, List.reverse_reverse]

/-- If the part before a place does not end with a carriage return, it stands in the line that is
shown, and what follows it is the rest of the line without the carriage returns at its end. -/
theorem sourceLine_eq {source : Text} {offset : Nat} (le : offset ≤ source.length)
    (solid : (source.take offset).getLast? ≠ some '\r') :
    sourceLine source offset = Location.lineSoFar (source.take offset) ++
      withoutReturns ((source.drop offset).takeWhile (· ≠ '\n')) := by
  obtain ⟨above, parts, _⟩ := Location.exists_lineSoFar (source.take offset)
  have solid' : (Location.lineSoFar (source.take offset)).getLast? ≠ some '\r' := by
    intro last
    rw [parts, List.getLast?_append, last] at solid
    exact solid rfl
  simp only [sourceLine, Location.clamp_of_le le]
  exact withoutReturns_append solid' _

/-- What is shown from a place on begins with the character at the place, unless that ends the
line. -/
theorem getElem?_zero_rest {source : Text} {offset : Nat} {c : Char}
    (at_place : source[offset]? = some c) (other : c ∉ lineTerminators) :
    (withoutReturns ((source.drop offset).takeWhile (· ≠ '\n')))[0]? = some c := by
  have notNewline : c ≠ '\n' := fun h => other (by simp [h, lineTerminators])
  have notReturn : c ≠ '\r' := fun h => other (by simp [h, lineTerminators])
  obtain ⟨inside, rfl⟩ := List.getElem?_eq_some_iff.mp at_place
  rw [List.drop_eq_getElem_cons inside, List.takeWhile_cons_of_pos (by simpa using notNewline),
    ← List.singleton_append, withoutReturns_append (by simpa using notReturn)]
  rfl

/-! ## What has been read of a literal -/

theorem Item.not_line {excluded item : Text} (ends : lineTerminators ⊆ excluded)
    (h : Item excluded item) : ∀ x ∈ item, x ∉ lineTerminators := by
  cases h with
  | plain plain =>
    intro x mem line
    rw [List.mem_singleton.mp mem] at line
    exact plain (ends line)
  | escape letter =>
    have letters : ∀ e ∈ ['b', 'n', 'r', 't', '\'', '"', '\\'], e ∉ lineTerminators :=
      forall_mem_of_all (by decide)
    rw [List.forall_mem_cons, List.forall_mem_singleton]
    exact ⟨by decide, letters _ letter⟩

theorem Spelling.not_line {kind : Kind} {l : Text} (h : Spelling kind l)
    (literal : kind = .character ∨ kind = .string) : ∀ x ∈ l, x ∉ lineTerminators := by
  cases h with
  | character item =>
    have within := item.not_line (by decide)
    simp only [List.forall_mem_cons, List.forall_mem_append]
    exact ⟨by decide, within, by decide, List.forall_mem_nil _⟩
  | @string items standing =>
    have within : ∀ x ∈ items.flatten, x ∉ lineTerminators := by
      intro x mem
      obtain ⟨item, among, mem⟩ := List.mem_flatten.mp mem
      exact (standing item among).not_line (by decide) x mem
    simp only [List.forall_mem_cons, List.forall_mem_append]
    exact ⟨by decide, within, by decide, List.forall_mem_nil _⟩
  | _ => simp at literal

/-- What has been read of a literal before it is refused holds no line end. -/
theorem Scan.not_line_of_refused {c : Char} {t : Text} {flaw : Flaw} (space : c ≠ ' ')
    (h : ofText .strict c t = .refused flaw) :
    0 < flaw.depth ∧ ∀ x ∈ (c :: t).take flaw.depth, x ∉ lineTerminators := by
  have within {kind : Kind} {more : Text} (pos : 0 < flaw.depth)
      (literal : kind = .character ∨ kind = .string)
      (spelled : Spelling kind (c :: (t.take (flaw.depth - 1) ++ more))) :
      ∀ x ∈ (c :: t).take flaw.depth, x ∉ lineTerminators := by
    rw [List.take_cons pos]
    intro x mem
    refine spelled.not_line literal x ?_
    rw [← List.cons_append]
    exact List.mem_append_left _ mem
  rcases quote_of_refused space h with rfl | rfl
  · rw [ofText_quote (.inl rfl)] at h
    obtain ⟨more, spelled⟩ := CharacterLiteral.exists_completion h
    have pos := (CharacterLiteral.item_of_refused h).1
    exact ⟨pos, within pos (.inl rfl) spelled⟩
  · rw [ofText_double] at h
    obtain ⟨more, spelled⟩ := StringLiteral.exists_completion h
    have pos := StringLiteral.le_of_strict_refused h
    exact ⟨pos, within pos (.inr rfl) spelled⟩

/-- A carriage return never stands right before the place of a strict fault, and the place is in
the text or at its end. -/
theorem Options.solid_of_refusal {o : Options} {source : Text} {fault : Fault}
    (strict : o.mode = .strict) (refused : (o.read source).refusal = some fault) :
    fault.offset ≤ source.length ∧ (source.take fault.offset).getLast? ≠ some '\r' := by
  obtain ⟨a, c, u, flaw, rfl, _, black, scan, rfl⟩ := exists_of_refused strict refused
  obtain ⟨pos, plain⟩ := Scan.not_line_of_refused (ne_space_of_not_mem black) scan
  have offset : (flaw.place a.length).offset = a.length + flaw.depth := rfl
  rw [offset]
  refine ⟨?_, fun last => ?_⟩
  · rw [List.length_append, List.length_cons]
    exact Nat.add_le_add_left (Scan.depth_le_of_refused scan) _
  · rw [List.take_length_add_append, List.getLast?_append_of_ne_nil] at last
    · exact plain '\r' (List.mem_of_getLast? last) (by decide)
    · rw [List.take_cons pos]
      exact List.cons_ne_nil _ _

/-- The caret of a strict fault is under the character to be blamed. The line that is shown begins
with the text from the start of its line up to the place of the fault, goes on with the character at
the place unless that ends the line, and the caret is as far to the right as the column says. -/
theorem lex_strict_caret (o : Options) (filename source : Text) (fault : Fault) (r : Report)
    (refused : ((Lexer.new (o.inMode .strict) filename source).lex).1 = .error fault)
    (reported : ((Lexer.new (o.inMode .strict) filename source).lex).2.report fault = r) :
    ∃ place row above before,
      r.location = some place ∧ r.sourceLine = some row ∧ r.offset = fault.offset ∧
      -- the line of the fault up to the place
      fault.offset ≤ source.length ∧ source.take fault.offset = above ++ before ∧
      (above = [] ∨ above.getLast? = some '\n') ∧ '\n' ∉ before ∧
      -- the location
      place.line = 1 + (source.take fault.offset).count '\n' ∧
      1 ≤ place.column ∧ place.column ≤ row.length + 1 ∧
      -- the line that is shown
      '\n' ∉ row ∧ row.take (place.column - 1).toNat = before ∧
      (∀ c, source[fault.offset]? = some c → c ∉ lineTerminators →
        row[(place.column - 1).toNat]? = some c) ∧
      -- the caret under it
      r.text = Text.joinLines ((place.text ++ ": error: ".toList ++ r.description) ::
        ("    ".toList ++ row) :: (List.replicate (4 + place.column - 1).toNat ' ' ++ ['^']) ::
        r.hint.toList.map ("hint: ".toList ++ ·)) := by
  rw [Lexer.lex_new_eq_error_iff] at refused
  rw [Lexer.report_lex_new] at reported
  subst reported
  obtain ⟨le, solid⟩ := Options.solid_of_refusal (o := o.inMode .strict) rfl refused
  obtain ⟨above, parts, start⟩ := Location.exists_lineSoFar (source.take fault.offset)
  have line := sourceLine_eq le solid
  have plain := newline_not_mem_sourceLine source fault.offset
  have clamp : Location.clamp source fault.offset = fault.offset := Nat.min_eq_left le
  have number : (Location.ofOffset source fault.offset filename).line =
      (source.take fault.offset).count '\n' + 1 := by
    simp only [Location.ofOffset, clamp]
  have column : (Location.ofOffset source fault.offset filename).column =
      (Location.lineSoFar (source.take fault.offset)).length + 1 := by
    simp only [Location.ofOffset, clamp]
  have width : ((Location.ofOffset source fault.offset filename).column - 1).toNat =
      (Location.lineSoFar (source.take fault.offset)).length := by
    rw [column, Int.add_sub_cancel, Int.toNat_natCast]
  refine ⟨_, _, above, _, rfl, rfl, rfl, le, parts, start, Location.newline_not_mem_lineSoFar _,
    ?_, ?_, ?_, plain, ?_, fun c at_place other => ?_,
    congrArg Text.joinLines (fault.lines_report source filename)⟩
  · rw [number, Int.add_comm]
  · rw [column]
    omega
  · rw [column, line, List.length_append]
    omega
  · rw [width, line, List.take_left]
  · rw [width, line, List.getElem?_append_right (Nat.le_refl _), Nat.sub_self]
    exact getElem?_zero_rest at_place other

theorem lex_strict_caret_returns :
    ((Lexer.new (Options.standard.inMode .strict) [] "x\n\"ab\r\r\ny".toList).lex).1 =
      .error ⟨.unterminated .string, 2, 5⟩ ∧
    ∃ above, "x\n\"ab".toList = above ++ "\"ab".toList ∧
      (above = [] ∨ above.getLast? = some '\n') ∧
      (Fault.report "x\n\"ab\r\r\ny".toList [] ⟨.unterminated .string, 2, 5⟩).text =
        Text.joinLines [":2:4: error: unterminated string literal".toList, "    \"ab".toList,
          "       ^".toList,
          "hint: add a closing '\"' to complete the string (opened at offset 2)".toList] := by
  have refused : ((Lexer.new (Options.standard.inMode .strict) [] "x\n\"ab\r\r\ny".toList).lex).1 =
      .error ⟨.unterminated .string, 2, 5⟩ := by decide +kernel
  obtain ⟨place, line, above, before, located, shown, -, -, parts, start, -, -, -, -, -, front, -,
    text⟩ := lex_strict_caret .standard [] _ _ _ refused (Lexer.report_lex_new _ _ _ _)
  obtain rfl := Option.some.inj located
  obtain rfl := Option.some.inj shown
  subst front
  exact ⟨refused, above, parts, start, text.trans (by decide +kernel)⟩

end Lexis
