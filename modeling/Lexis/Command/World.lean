import Lexis.Command.Outcome
import Lexis.Options

/-!
# The world of a command

All that a command learns from outside its command line: the variables of its process, the bytes of
its standard input, what stands at the paths it is given, whether a file can be written there, and
what the standard output takes. A file is written whole or not at all, and so is what is printed at
once.

A path is a text whose segments are separated by slashes. The tool shows and opens paths in a
shortened form: without empty segments and without segments that stay in place. Segments that lead
up are kept, since the folder above a link is not known from the path.
-/

namespace Lexis.Path

/-- The segments of a path, empty ones included. -/
def segments : Text → List Text
  | [] => [[]]
  | c :: t =>
    if c = '/' then [] :: segments t
    else
      match segments t with
      | [] => [[c]]
      | s :: rest => (c :: s) :: rest

def moves (segment : Text) : Bool := segment ≠ [] && segment ≠ ['.']

/-- The slashes in front of an absolute path in its shortened form: exactly two stay two, any other
number becomes one. -/
def root (path : Text) : Text :=
  match (path.takeWhile (· = '/')).length with
  | 0 => []
  | 2 => ['/', '/']
  | _ => ['/']

/-- The shortened form. A path that leads nowhere else is the folder one is in. -/
def shortened (path : Text) : Text :=
  match root path ++ ['/'].intercalate ((segments path).filter moves) with
  | [] => ['.']
  | short => short

end Lexis.Path


namespace Lexis.Command

def standardInput : Text := ['-']

inductive Entry
  | missing
  | folder
  | file (content : List UInt8)
deriving DecidableEq, Repr

structure Obstacle where
  number : Int
  message : Text
deriving DecidableEq, Repr

/-- Why the standard output does not take a text. -/
inductive Rejection
  /-- The text has no form in the encoding of the channel; the encoder says why. -/
  | encoding (message : Text)
  | obstacle (obstacle : Obstacle)
deriving DecidableEq, Repr

def Rejection.failure : Rejection → Failure
  | encoding message => .configuration message
  | obstacle o => .system ⟨o.number, o.message, none⟩

structure World where
  environment : Environment
  input : List UInt8
  entry : Text → Entry
  /-- Why a file cannot be written at a path; nothing if it can. -/
  obstacle? : Text → Option Obstacle
  /-- Why a text cannot be printed; nothing if it can. -/
  rejection? : Text → Option Rejection

end Lexis.Command
