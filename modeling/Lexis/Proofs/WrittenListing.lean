import Lexis.Proofs.TokensCommand

/-!
# What is written is what is printed

A listing can be printed or written to a file. What is printed loses its control sequences, and what
is written keeps them; since a listing has none, the file gets what would have been printed, line
feed included. The standard output may reject the listing and take the acknowledgement, or the other
way round; the file gets the same text all the same.

Results:
1. `TokensRequest.written_of_success`, `TokensRequest.written_of_printed`: two requests that differ
   in the file to be written only.
2. `written_eq_printed`: the same for command lines.
-/

namespace Lexis.Command

namespace TokensRequest

variable {r : TokensRequest} {w : World} {content : List UInt8} {path : Text}

theorem exists_of_success (success : (r.outcome w).exitCode = .success) :
    ∃ content, r.bytes w = .ok content ∧ ∀ path ∈ r.output, w.entry path ≠ .folder := by
  unfold outcome at success
  cases bytes : r.bytes w with
  | error e =>
    simp only [bytes] at success
    cases success
  | ok content =>
    refine ⟨content, rfl, fun path output folder => ?_⟩
    have refused : r.target w = .error (.isFolder path) := by
      simp only [target, Option.mem_def.mp output, folder]
    simp only [bytes, refused] at success
    cases success

/-- What is written would be printed, and is if the standard output takes it. -/
theorem written_of_success (bare : r.output = none)
    (success : ({ r with output := some path }.outcome w).exitCode = .success) :
    ∃ text, ({ r with output := some path }.outcome w).written =
        some (Path.shortened path, text) ∧
      (w.rejection? text = none ↔ (r.outcome w).exitCode = .success) ∧
      ((r.outcome w).exitCode = .success → (r.outcome w).out = text) := by
  obtain ⟨content, bytes, free⟩ := exists_of_success success
  have writing := ends_outcome bytes free
  have printing : r.Ends w content (r.outcome w) := ends_outcome bytes (by simp [bare])
  obtain ⟨o, t, tokens, reads, answered, -, -, written⟩ := writing.of_success success
  have printed := printing.of_answered ⟨reads.options, reads.spelled⟩ answered
    (clear_of_none bare)
  rw [printout_of_none bare] at printed
  exact ⟨r.listing tokens ++ ['\n'], written, printed.2⟩

/-- What is printed is written, unless there is an obstacle. -/
theorem written_of_printed (bare : r.output = none)
    (success : (r.outcome w).exitCode = .success) (free : w.entry path ≠ .folder)
    (clear : w.obstacle? (Path.shortened path) = none) :
    ({ r with output := some path }.outcome w).written =
        some (Path.shortened path, (r.outcome w).out) ∧
      ((∀ text, w.rejection? text = none) →
        ({ r with output := some path }.outcome w).exitCode = .success) := by
  obtain ⟨content, bytes, -⟩ := exists_of_success success
  have printing : r.Ends w content (r.outcome w) := ends_outcome bytes (by simp [bare])
  have writing : { r with output := some path }.Ends w content _ :=
    ends_outcome bytes (by simpa using free)
  obtain ⟨o, t, tokens, reads, answered, -, out, -⟩ := printing.of_success success
  obtain ⟨written, taken, -⟩ :=
    writing.of_answered ⟨reads.options, reads.spelled⟩ answered (by simpa [Clear] using clear)
  rw [out, printout_of_none bare]
  exact ⟨written, fun open' => taken.mp (open' _)⟩

end TokensRequest

/-- Of two command lines that ask for the same listing, one printed and one written, the second
writes what the first prints. If the second succeeds, the first does too unless the standard output
rejects what has been written; if the first succeeds and the file can be written, the second does
too unless its own answer is rejected. -/
theorem written_eq_printed {w : World} {words words' : List Text} {r : TokensRequest} {path : Text}
    (printing : Invocation.read words = .ok (.tokens r)) (bare : r.output = none)
    (writing : Invocation.read words' = .ok (.tokens { r with output := some path })) :
    ((run w words').exitCode = .success → ∃ text,
      (run w words').written = some (Path.shortened path, text) ∧
      (w.rejection? text = none ↔ (run w words).exitCode = .success) ∧
      ((run w words).exitCode = .success → (run w words).out = text)) ∧
    ((run w words).exitCode = .success → w.entry path ≠ .folder →
      w.obstacle? (Path.shortened path) = none →
      (run w words').written = some (Path.shortened path, (run w words).out) ∧
        ((∀ text, w.rejection? text = none) → (run w words').exitCode = .success)) := by
  simp only [run, printing, writing, Invocation.outcome]
  exact ⟨TokensRequest.written_of_success bare, TokensRequest.written_of_printed bare⟩

theorem written_eq_printed_control :
    let w : World := ⟨[], [], fun _ => .file (Utf8.encode "\"\x1b[31m\"".toList), fun _ => none,
      fun _ => none⟩
    (run w ["tokens".toList, "-o".toList, "b.txt".toList, "a.plc".toList]).written =
      some ("b.txt".toList, (run w ["tokens".toList, "a.plc".toList]).out) ∧
    (run w ["tokens".toList, "a.plc".toList]).out =
      "     0  STRING      '\"\\x1b[31m\"'\n".toList := by
  intro w
  let r : TokensRequest := ⟨false, "a.plc".toList, none, false, .text, none⟩
  have printing : Invocation.read ["tokens".toList, "a.plc".toList] = .ok (.tokens r) :=
    Invocation.read_tokens_file (by decide)
  have writing := Invocation.read_tokens_output printing rfl "b.txt".toList
  have printed : run w ["tokens".toList, "a.plc".toList] =
      ⟨.success, "     0  STRING      '\"\\x1b[31m\"'\n".toList, [], none⟩ := by
    simp only [run, printing]
    decide +kernel
  obtain ⟨-, same⟩ := written_eq_printed printing rfl writing
  have written := (same (by rw [printed]) Entry.noConfusion rfl).1
  rw [show Path.shortened "b.txt".toList = "b.txt".toList by decide] at written
  exact ⟨written, by rw [printed]⟩

end Lexis.Command
