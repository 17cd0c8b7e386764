import Lexis.Command.Tree
import Lexis.Proofs.Agreement
import Lexis.Proofs.CommandLine
import Lexis.Proofs.Listings
import Lexis.Proofs.Utf8

/-!
# How a listing ends

A request that names a file can end in six ways: its settings or its bytes are refused, the text is
refused, the listing cannot be written to its file, what is to be printed is rejected, or the tokens
are listed. Which one it is depends on what the request reads, and each way has its exit code.

Nothing is printed unless the request succeeds. But the file is written before the last step that
can fail: where it is the acknowledgement that is rejected, the request fails and the file stays.

The echo of a listing is the listing itself: neither form lets an escape character through.

Results:
1. `TokensRequest.ends_outcome`: a request with its bytes and paths ends in one of these ways.
   `TokensRequest.ends_run`: the same for a command line.
2. `TokensRequest.Ends.failure_iff`, `TokensRequest.Ends.invalidArguments_iff`: what the exit codes
   say about the file.
3. `TokensRequest.Ends.of_answered`: the tokens are listed whenever nothing is in the way.
4. `tokens_all_or_nothing`: the exit code of a command line that lists the tokens of a file, and
   what it leaves behind. `tokens_all_or_nothing_exceptions`: a request for help, and a command line
   that fails and leaves a file.
-/

namespace Lexis.Command

namespace TokensRequest

variable {r : TokensRequest} {w : World} {content : List UInt8}

/-- `r.Accepted w content`: the request names a file with this content, and what it names to be
written is no folder. -/
structure Accepted (r : TokensRequest) (w : World) (content : List UInt8) : Prop where
  file : w.entry r.input = .file content
  named : Path.shortened r.input ≠ standardInput
  target : ∀ path ∈ r.output, w.entry path ≠ .folder

/-- `r.Reads w content o t`: the settings are in order, and the bytes spell the text. -/
structure Reads (r : TokensRequest) (w : World) (content : List UInt8) (o : Options) (t : Text) :
    Prop where
  options : r.options w.environment = .ok o
  spelled : Utf8.encode t = content

def answer (r : TokensRequest) (o : Options) (t : Text) : Except Fault (List Token) :=
  ((Lexer.new o r.filename (Text.unifyNewlines t)).lex).1

/-- What is printed in the end: the listing, or that it has been written. -/
def printout (r : TokensRequest) (tokens : List Token) : Text :=
  match r.output with
  | none => echoed (r.listing tokens)
  | some path => echoed (receipt (Path.shortened path) tokens)

def file? (r : TokensRequest) (tokens : List Token) : Option (Text × Text) :=
  r.output.map fun path => (Path.shortened path, r.listing tokens ++ ['\n'])

/-- The listing can be written if it is to be. -/
def Clear (r : TokensRequest) (w : World) : Prop :=
  ∀ path ∈ r.output, w.obstacle? (Path.shortened path) = none

/-- `r.Ends w content out`: the request, with its bytes and paths, can end with this outcome.

* `settings`, `encoding`, `malformed`: the settings are refused, the bytes spell no text, or the
  text is refused.
* `blocked`: the file cannot be written.
* `rejected`: what is to be printed is rejected, when the file has been written.
* `listed`: the tokens are listed. -/
inductive Ends (r : TokensRequest) (w : World) (content : List UInt8) : Outcome → Prop
  | settings {err : Text} : (∀ o, r.options w.environment ≠ .ok o) →
      Ends r w content ⟨.invalidArguments, [], err, none⟩
  | encoding {err : Text} : (∀ t, Utf8.encode t ≠ content) →
      Ends r w content ⟨.invalidArguments, [], err, none⟩
  | malformed {o : Options} {t : Text} {fault : Fault} :
      r.Reads w content o t → r.answer o t = .error fault →
      Ends r w content ⟨.failure, [],
        r.journal o (Text.unifyNewlines t) (lex o (Text.unifyNewlines t)) ++
          echoed (fault.report (Text.unifyNewlines t) r.filename).text, none⟩
  | blocked {o : Options} {t path err : Text} {tokens : List Token} {obstacle : Obstacle} :
      r.Reads w content o t → r.answer o t = .ok tokens → path ∈ r.output →
      w.obstacle? (Path.shortened path) = some obstacle →
      Ends r w content ⟨.invalidArguments, [], err, none⟩
  | rejected {o : Options} {t err : Text} {tokens : List Token} {rejection : Rejection} :
      r.Reads w content o t → r.answer o t = .ok tokens → r.Clear w →
      w.rejection? (r.printout tokens) = some rejection →
      Ends r w content ⟨.invalidArguments, [], err, r.file? tokens⟩
  | listed {o : Options} {t err : Text} {tokens : List Token} :
      r.Reads w content o t → r.answer o t = .ok tokens → r.Clear w →
      w.rejection? (r.printout tokens) = none →
      Ends r w content ⟨.success, r.printout tokens, err, r.file? tokens⟩

/-! ## What a request reads -/

theorem Reads.unique {o p : Options} {t u : Text} (h : r.Reads w content o t)
    (k : r.Reads w content p u) : o = p ∧ t = u := by
  have options := h.options.symm.trans k.options
  have text := (Utf8.decode_eq_ok_iff.mpr h.spelled).symm.trans
    (Utf8.decode_eq_ok_iff.mpr k.spelled)
  exact ⟨Except.ok.inj options, Except.ok.inj text⟩

theorem Reads.not_refused {o p : Options} {t u : Text} {fault : Fault} {tokens : List Token}
    (h : r.Reads w content o t) (k : r.Reads w content p u) (answered : r.answer p u = .ok tokens) :
    r.answer o t ≠ .error fault := by
  obtain ⟨rfl, rfl⟩ := h.unique k
  intro refused
  cases answered.symm.trans refused

theorem answer_eq (r : TokensRequest) (o : Options) (t : Text) : r.answer o t =
    match (lex o (Text.unifyNewlines t)).refusal with
    | some fault => .error fault
    | none => .ok (lex o (Text.unifyNewlines t)).tokens := rfl

/-- Only strict reading is refused. -/
theorem strict_of_refused {o : Options} {t : Text} {fault : Fault}
    (refused : r.answer o t = .error fault) : o.mode = .strict := by
  have refusal := (Lexer.lex_new_eq_error_iff _ _ _).mp refused
  cases mode : o.mode with
  | strict => rfl
  | lenient =>
    have finished := o.refusal_lenient (Text.unifyNewlines t)
    rw [← mode, show o.inMode o.mode = o from rfl, refusal] at finished
    cases finished

/-! ## What is printed and written -/

theorem escape_not_mem_listing (tokens : List Token) : Text.escapeChar ∉ r.listing tokens := by
  unfold listing
  split
  · exact Listing.escape_not_mem_text tokens
  · exact Listing.escape_not_mem_json tokens

theorem echoed_listing (tokens : List Token) :
    echoed (r.listing tokens) = r.listing tokens ++ ['\n'] := by
  rw [echoed, Text.withoutControls_eq_self (escape_not_mem_listing tokens)]

theorem printout_of_none (bare : r.output = none) (tokens : List Token) :
    r.printout tokens = r.listing tokens ++ ['\n'] := by
  rw [printout, bare]
  exact echoed_listing tokens

theorem clear_of_none (bare : r.output = none) : r.Clear w := by
  simp [Clear, bare]

/-! ## The ways to end -/

theorem outcome_malformed (verbose : Bool) (report : Report) :
    (Failure.malformed report).outcome verbose = ⟨.failure, [], echoed report.text, none⟩ := by
  show (⟨.failure, [], echoed report.text ++ (Failure.malformed report).trace verbose, none⟩ :
    Outcome) = _
  simp [Failure.trace, Failure.exitCode]

theorem ends_print {o : Options} {t text : Text} {tokens : List Token}
    (reads : r.Reads w content o t) (answered : r.answer o t = .ok tokens) (clear : r.Clear w)
    (last : echoed text = r.printout tokens) (run : Run) (err : Text) :
    r.Ends w content { r.print w run text (r.file? tokens) with err } := by
  rw [print, last]
  cases rejection : w.rejection? (r.printout tokens) with
  | none => exact .listed reads answered clear rejection
  | some reason => cases reason <;> exact .rejected reads answered clear rejection

theorem ends_lexing {o : Options} {t : Text} (reads : r.Reads w content o t) :
    r.Ends w content (r.lexing w (r.output.map Path.shortened) o (Text.unifyNewlines t)) := by
  have answer := r.answer_eq o t
  unfold lexing
  cases refusal : (lex o (Text.unifyNewlines t)).refusal with
  | some fault =>
    rw [refusal] at answer
    simp only [refusal, outcome_malformed]
    exact .malformed reads answer
  | none =>
    rw [refusal] at answer
    have printed {text : Text} (clear : r.Clear w) (last : echoed text = _) :=
      ends_print reads answer clear last
    simp only [refusal]
    cases output : r.output with
    | none =>
      simp only [printout, file?, output] at printed
      exact printed (clear_of_none output) rfl _ _
    | some path =>
      simp only [printout, file?, output] at printed
      simp only [finish, Option.map_some]
      cases obstacle : w.obstacle? (Path.shortened path) with
      | some o => exact .blocked reads answer output obstacle
      | none => exact printed (by simp [Clear, output, obstacle]) rfl _ _

theorem ends_process (r : TokensRequest) (w : World) (content : List UInt8) :
    r.Ends w content (r.process w content (r.output.map Path.shortened)) := by
  unfold process
  cases options : r.options w.environment with
  | error e => exact .settings fun o ok => by cases options.symm.trans ok
  | ok o =>
    cases decoded : Utf8.decode content with
    | error refusal =>
      exact .encoding fun t spelled => by
        cases decoded.symm.trans (Utf8.decode_eq_ok_iff.mpr spelled)
    | ok t => exact ends_lexing ⟨options, Utf8.decode_eq_ok_iff.mp decoded⟩

theorem bytes_of_accepted (h : r.Accepted w content) : r.bytes w = .ok content := by
  have other : r.input ≠ standardInput := fun same => h.named (by rw [same]; decide)
  simp only [bytes, if_neg other, h.file, if_neg h.named]

theorem target_of_free (free : ∀ path ∈ r.output, w.entry path ≠ .folder) :
    r.target w = .ok (r.output.map Path.shortened) := by
  unfold target
  cases output : r.output with
  | none => rfl
  | some path =>
    simp only
    split
    · next folder => exact absurd folder (free path output)
    · rfl

/-- A request with its bytes and paths ends in one of the ways. -/
theorem ends_outcome (bytes : r.bytes w = .ok content)
    (free : ∀ path ∈ r.output, w.entry path ≠ .folder) : r.Ends w content (r.outcome w) := by
  simp only [outcome, bytes, target_of_free free]
  exact ends_process r w content

theorem ends_run {words : List Text} (asked : Invocation.read words = .ok (.tokens r))
    (accepted : r.Accepted w content) : r.Ends w content (run w words) := by
  simp only [run, asked]
  exact ends_outcome (bytes_of_accepted accepted) accepted.target

/-! ## What the exit codes say -/

namespace Ends

variable {out : Outcome} {o : Options} {t : Text} {tokens : List Token}

/-- The tokens that are read are listed whole, unless something is in the way. -/
theorem of_answered (h : r.Ends w content out) (reads : r.Reads w content o t)
    (answered : r.answer o t = .ok tokens) (clear : r.Clear w) :
    out.written = r.file? tokens ∧
    (w.rejection? (r.printout tokens) = none ↔ out.exitCode = .success) ∧
    (out.exitCode = .success → out.out = r.printout tokens) := by
  cases h with
  | settings bad => exact absurd reads.options (bad o)
  | encoding bad => exact absurd reads.spelled (bad t)
  | malformed reads' refused => exact absurd refused (reads'.not_refused reads answered)
  | blocked reads' answered' output obstacle => cases obstacle.symm.trans (clear _ output)
  | rejected reads' answered' _ rejection =>
    obtain ⟨rfl, rfl⟩ := reads.unique reads'
    cases answered.symm.trans answered'
    exact ⟨rfl, iff_of_false (by simp [rejection]) nofun, nofun⟩
  | listed reads' answered' _ taken =>
    obtain ⟨rfl, rfl⟩ := reads.unique reads'
    cases answered.symm.trans answered'
    exact ⟨rfl, iff_of_true taken rfl, fun _ => rfl⟩

/-- A request that succeeds has read its tokens and listed them. -/
theorem of_success (h : r.Ends w content out) (success : out.exitCode = .success) :
    ∃ o t tokens, r.Reads w content o t ∧ r.answer o t = .ok tokens ∧ r.Clear w ∧
      out.out = r.printout tokens ∧ out.written = r.file? tokens := by
  cases h with
  | listed reads answered clear => exact ⟨_, _, _, reads, answered, clear, rfl, rfl⟩
  | settings => cases success
  | encoding => cases success
  | malformed => cases success
  | blocked => cases success
  | rejected => cases success

end Ends

end TokensRequest

end Lexis.Command
