import Lexis.Proofs.Controls
import Lexis.Proofs.Layout
import Lexis.Proofs.TokensCommand

/-!
# Reports that are echoed

A report that reaches the error channel has been echoed: each of its lines has lost its control
sequences. The lines that the tool words hold none. The line of the source is shown as it stands, so
it may hold some, and so may the name of the file in front of the description; then the caret no
longer stands under the character to be blamed.

Results:
1. `Fault.holdsControl_report_iff`: the lines of a report that can hold control sequences.
2. `Fault.not_holdsControl_headline`: the first line holds none if the name of the file has no
   escape character.
3. `stderr_of_malformed`: what is left on the error channel when lexing is refused.
   `stderr_of_malformed_control`: a line of the source that is not shown as it stands.
-/

namespace Lexis

open Text

/-! ## The wording of a report -/

namespace Text

theorem escape_not_mem_of_isPrintable {t : Text} (printable : ∀ c ∈ t, isPrintable c = true) :
    escapeChar ∉ t := fun mem => by
  cases isPrintable_escape.symm.trans (printable _ mem)

theorem escape_not_mem_ofInt (n : Int) : escapeChar ∉ ofInt n :=
  escape_not_mem_of_isPrintable fun _ => isPrintable_of_mem_ofInt

end Text

namespace Fault

variable (fault : Fault)

/-- An escape character in a description stands before the closing quote, which does not go on with
a control sequence. -/
theorem not_holdsControl_description : ¬ HoldsControl fault.complaint.description := by
  by_cases escape : ∃ letter, fault.cause = .invalidEscape letter
  · obtain ⟨letter, cause⟩ := escape
    have complaint : fault.complaint = .invalidEscape [letter] := by
      rw [Fault.complaint, cause]
    rw [complaint]
    show ¬ HoldsControl ("invalid escape sequence '\\".toList ++ [letter] ++ "'".toList)
    rw [List.append_assoc, holdsControl_append_iff (by decide), List.singleton_append,
      holdsControl_cons_iff]
    rintro (⟨_, rest, control⟩ | control)
    · cases (show afterControl? "'".toList = none by decide).symm.trans control
    · exact not_holdsControl_of_not_mem (by decide) control
  · have other : ∀ letter, fault.cause ≠ .invalidEscape letter :=
      fun letter cause => escape ⟨letter, cause⟩
    exact not_holdsControl_of_not_mem
      (escape_not_mem_of_isPrintable fun _ => fault.isPrintable_of_mem_description other)

variable (source filename : Text)

/-- The first line begins with the name of the file, and what is behind the name holds no control
sequence of its own. -/
theorem not_holdsControl_headline (plain : escapeChar ∉ filename) :
    ¬ HoldsControl (fault.report source filename).headline := by
  show ¬ HoldsControl (filename ++ ':' :: ofInt _ ++ ':' :: ofInt _ ++ ": error: ".toList ++
    fault.complaint.description)
  rw [holdsControl_append_iff]
  · exact fault.not_holdsControl_description
  · simp only [List.mem_append, List.mem_cons, plain, escape_not_mem_ofInt]
    decide

/-- Only the first line of a report and the line of the source can hold control sequences. -/
theorem holdsControl_report_iff :
    HoldsControl (fault.report source filename).text ↔
      HoldsControl (fault.report source filename).headline ∨
        HoldsControl (sourceLine source fault.offset) := by
  have margin : escapeChar ∉ "    ".toList := by decide
  rw [Report.text, holdsControl_joinLines, fault.lines_report]
  constructor
  · rintro ⟨line, mem, control⟩
    rcases List.mem_append.mp mem with front | hint
    · simp only [List.mem_cons, List.not_mem_nil, or_false] at front
      rcases front with rfl | rfl | rfl
      · exact .inl control
      · exact .inr ((holdsControl_append_iff margin).mp control)
      · refine absurd control (not_holdsControl_of_not_mem ?_)
        simp only [List.mem_append, List.mem_replicate]
        exact fun caret => caret.elim (fun blank => absurd blank.2 (by decide)) (by decide)
    · obtain ⟨text, given, rfl⟩ := List.mem_map.mp hint
      have plain : escapeChar ∉ text := escape_not_mem_of_isPrintable fun _ =>
        fault.isPrintable_of_mem_hint (Option.mem_toList.mp given)
      refine absurd control (not_holdsControl_of_not_mem ?_)
      simp only [List.mem_append, plain]
      decide
  · rintro (first | row)
    · exact ⟨_, List.mem_append_left _ List.mem_cons_self, first⟩
    · exact ⟨_, List.mem_append_left _ (List.mem_cons_of_mem _ List.mem_cons_self),
        (holdsControl_append_iff margin).mpr row⟩

end Fault

/-! ## The error channel -/

theorem Options.accepted_strict {o : Options} (strict : o.mode = .strict) (t : Text) :
    (o.read t).accepted = [] := by
  induction t using o.read_induction with
  | nil => rw [read_nil, Reading.finished]
  | white c t white ih => rw [read_white white, Reading.shift, ih, List.map_nil]
  | token c t kind further flaw black scan _ ih =>
    have sound : flaw = none := by
      rw [strict] at scan
      exact (Scan.longest_of_token scan).2
    rw [read_token black scan, Reading.cons, Reading.shift, ih, sound]
    rfl
  | refused c t flaw black scan => rw [read_refused black scan, Reading.refused]

namespace Command

variable {w : World} {words : List Text} {r : TokensRequest} {content : List UInt8} {o : Options}
  {t : Text} {fault : Fault}

/-- A command that is not verbose shows nothing of its journal when strict reading is refused. -/
theorem TokensRequest.journal_eq_nil (quiet : r.verbose = false)
    (refused : r.answer o t = .error fault) :
    r.journal o (Text.unifyNewlines t) (lex o (Text.unifyNewlines t)) = [] := by
  have read := lex_reading o (Text.unifyNewlines t)
  have accepted : (lex o (Text.unifyNewlines t)).accepted = [] :=
    (congrArg Reading.accepted read).trans (o.accepted_strict (strict_of_refused refused) _)
  have refusal : (lex o (Text.unifyNewlines t)).refusal = some fault :=
    (congrArg Reading.refusal read).trans ((Lexer.lex_new_eq_error_iff _ _ _).mp refused)
  have entries : (lex o (Text.unifyNewlines t)).journal (Text.unifyNewlines t) r.filename = [] := by
    simp only [Run.journal, accepted, refusal, List.map_nil, List.append_nil]
  rw [journal, entries, List.flatMap_singleton, shown, quiet]
  rfl

/-- A command that is not verbose and whose source is refused leaves the report alone. -/
theorem run_of_refused (asked : Invocation.read words = .ok (.tokens r))
    (accepted : r.Accepted w content) (quiet : r.verbose = false) (reads : r.Reads w content o t)
    (refused : r.answer o t = .error fault) :
    run w words = ⟨.failure, [],
      echoed (fault.report (Text.unifyNewlines t) r.filename).text, none⟩ := by
  have ends := TokensRequest.ends_run asked accepted
  generalize run w words = out at ends
  cases ends with
  | settings bad => exact absurd reads.options (bad o)
  | encoding bad => exact absurd reads.spelled (bad t)
  | malformed reads' refused' =>
    obtain ⟨rfl, rfl⟩ := reads.unique reads'
    cases refused.symm.trans refused'
    rw [TokensRequest.journal_eq_nil quiet refused, List.nil_append]
  | blocked reads' answered => exact absurd refused (reads.not_refused reads' answered)
  | rejected reads' answered => exact absurd refused (reads.not_refused reads' answered)
  | listed reads' answered => exact absurd refused (reads.not_refused reads' answered)

/-- When strict reading refuses the source, a command that is not verbose leaves the report on the
error channel, each line without its control sequences. So the report is intact if and only if
neither its first line nor the line of the source holds one; the first line does not if there is no
escape character in the name of the file. -/
theorem stderr_of_malformed (asked : Invocation.read words = .ok (.tokens r))
    (accepted : r.Accepted w content) (quiet : r.verbose = false) (reads : r.Reads w content o t)
    (refused : r.answer o t = .error fault) :
    let report := fault.report (Text.unifyNewlines t) r.filename
    (run w words).exitCode = .failure ∧ (run w words).out = [] ∧
    (run w words).err = joinLines (report.lines.map withoutControls) ++ ['\n'] ∧
    ((run w words).err = report.text ++ ['\n'] ↔ ¬ HoldsControl report.headline ∧
      ¬ HoldsControl (sourceLine (Text.unifyNewlines t) fault.offset)) ∧
    (escapeChar ∉ r.filename → ¬ HoldsControl report.headline) := by
  intro report
  have out := run_of_refused asked accepted quiet reads refused
  refine ⟨by rw [out], by rw [out], ?_, ?_, fault.not_holdsControl_headline _ _⟩
  · rw [out, echoed, Report.text, withoutControls_joinLines]
  · rw [out, ← not_or, ← fault.holdsControl_report_iff, ← withoutControls_eq_self_iff, echoed,
      List.append_cancel_right_eq]

theorem stderr_of_malformed_intact :
    (run ⟨[], [], fun _ => .file (Utf8.encode "\x1b '".toList), fun _ => none, fun _ => none⟩
      ["tokens".toList, "a.plc".toList]).err =
      ("a.plc:1:4: error: unterminated character literal\n    \x1b '\n       ^\n" ++
        "hint: add a closing \"'\" to complete the character (opened at offset 2)\n").toList := by
  let w : World := ⟨[], [], fun _ => .file (Utf8.encode "\x1b '".toList), fun _ => none, fun _ => none⟩
  let r : TokensRequest := ⟨false, "a.plc".toList, none, false, .text, none⟩
  have asked : Invocation.read ["tokens".toList, "a.plc".toList] = .ok (.tokens r) :=
    Invocation.read_tokens_file (by decide)
  have accepted : r.Accepted w (Utf8.encode "\x1b '".toList) :=
    ⟨rfl, by decide, fun _ _ => Entry.noConfusion⟩
  have refused : r.answer .standard "\x1b '".toList = .error ⟨.unterminated .character, 2, 3⟩ := by
    decide +kernel
  obtain ⟨-, -, -, intact, headline⟩ :=
    stderr_of_malformed asked accepted rfl ⟨rfl, rfl⟩ refused
  have row : ¬ HoldsControl (sourceLine (unifyNewlines "\x1b '".toList) (3 : Nat)) :=
    withoutControls_eq_self_iff.mp (by decide +kernel)
  exact (intact.mpr ⟨headline (by decide), row⟩).trans (by decide +kernel)

/-- A control sequence in the line of the source is removed, and then the caret does not stand
under the quote that is not closed. -/
theorem stderr_of_malformed_control :
    let source := "\x1b[31m'".toList
    let w : World := ⟨[], [], fun _ => .file (Utf8.encode source), fun _ => none, fun _ => none⟩
    let err := (run w ["tokens".toList, "a.plc".toList]).err
    ((Lexer.new .standard "a.plc".toList source).lex).1 =
      .error ⟨.unterminated .character, 5, 6⟩ ∧
    err = ("a.plc:1:7: error: unterminated character literal\n    '\n          ^\n" ++
      "hint: add a closing \"'\" to complete the character (opened at offset 5)\n").toList ∧
    err ≠ (Fault.report source "a.plc".toList ⟨.unterminated .character, 5, 6⟩).text ++ ['\n'] := by
  intro source w err
  let r : TokensRequest := ⟨false, "a.plc".toList, none, false, .text, none⟩
  have asked : Invocation.read ["tokens".toList, "a.plc".toList] = .ok (.tokens r) :=
    Invocation.read_tokens_file (by decide)
  have printed : err = (r.outcome w).err := by
    simp only [err, run, asked, Invocation.outcome]
  rw [printed]
  decide +kernel

end Command

end Lexis
