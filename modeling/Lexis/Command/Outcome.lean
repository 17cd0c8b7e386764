import Lexis.Pattern.Basic
import Lexis.Report
import Lexis.Text.Terminal
import Lexis.Text.Utf8

/-!
# Outcomes of a command

What a command leaves behind: its exit code, what it prints on the two channels, and the file it
writes. What is echoed loses its terminal control sequences; what is recorded in a file or in the
journal keeps them.

A command that fails answers with one message on the error channel. Malformed source and an unknown
pattern are failures of the work asked for; bad bytes, bad settings and refusals of the system are
failures of how it was asked for; anything else is a defect of the tool.
-/

namespace Lexis

inductive ExitCode
  | success
  | failure
  | invalidArguments
  | internalError
deriving DecidableEq, Repr

namespace ExitCode

def all : List ExitCode := [success, failure, invalidArguments, internalError]

def name : ExitCode → Text
  | success => "SUCCESS".toList
  | failure => "FAILURE".toList
  | invalidArguments => "INVALID_ARGS".toList
  | internalError => "INTERNAL_ERROR".toList

def number : ExitCode → Nat
  | success => 0
  | failure => 1
  | invalidArguments => 2
  | internalError => 3

end ExitCode

structure Outcome where
  exitCode : ExitCode
  out : Text
  err : Text
  /-- The path and the content of the file that is written. -/
  written : Option (Text × Text)
deriving DecidableEq, Repr

def echoed (t : Text) : Text :=
  Text.withoutControls t ++ ['\n']

/-- A refusal of the system, with the path that it is about if there is one. -/
structure SystemError where
  number : Int
  message : Text
  path : Option Text
deriving DecidableEq, Repr

def SystemError.text (e : SystemError) : Text :=
  "[Errno ".toList ++ Text.ofInt e.number ++ "] ".toList ++ e.message ++
    match e.path with
    | some path => ": ".toList ++ Text.quoted path
    | none => []

/-- Why a command fails. A text that is to be printed and has no form in the encoding counts as bad
configuration. -/
inductive Failure
  | malformed (report : Report)
  | unknownPattern (error : UnknownPattern)
  | other (message : Text)
  | encoding (refusal : Utf8.Refusal)
  | configuration (message : Text)
  | system (error : SystemError)
  /-- A table lacks a key that it ought to have. -/
  | missingKey (key : Text)
  | internal (message : Text)
deriving DecidableEq, Repr

namespace Failure

/-- The message on the error channel. A report of malformed source stands for itself. -/
def message : Failure → Text
  | malformed report => report.text
  | unknownPattern error => "Error: ".toList ++ error.message
  | other message => "Error: ".toList ++ message
  | encoding refusal =>
    "Error: input is not valid UTF-8 (".toList ++ refusal.defect.text ++ " at byte ".toList ++
      Text.ofNat refusal.offset ++ ")".toList
  | configuration message => "Configuration error: ".toList ++ message
  | system error => "I/O error: ".toList ++ error.text
  | missingKey key => "Internal error: ".toList ++ Text.quoted key
  | internal message => "Internal error: ".toList ++ message

def exitCode : Failure → ExitCode
  | malformed _ | unknownPattern _ | other _ => .failure
  | encoding _ | configuration _ | system _ => .invalidArguments
  | missingKey _ | internal _ => .internalError

/-- The trace of a defect, which is empty: failures are values here and leave none. -/
def emptyTrace : Text := "NoneType: None\n".toList

/-- The trace after the message, shown for defects when the command is verbose. -/
def trace (verbose : Bool) (f : Failure) : Text :=
  if verbose ∧ f.exitCode = .internalError then emptyTrace else []

def outcome (verbose : Bool) (f : Failure) : Outcome where
  exitCode := f.exitCode
  out := []
  err := echoed f.message ++ f.trace verbose
  written := none

end Failure

end Lexis
