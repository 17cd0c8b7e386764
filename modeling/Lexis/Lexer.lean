import Lexis.Run
import Lexis.Report

/-!
# Lexers

A lexer holds a text under reading: the settings, the cursor, and the faults accepted so far. Its
tokens can be asked for one at a time or all at once, in any order; each operation goes on where
the one before it stopped, after a refusal as well.

Tokens that are asked for one at a time come from a stream. A stream that has been refused or has
used up the text stays closed, until the lexer is asked for a new one.

Reading a whole text leaves a journal: a warning for each fault accepted, in the order of the
faults, and, when the text has been read to its end, notes on the number of tokens and of faults. A
refusal is an answer of its own and is not recorded.
-/

namespace Lexis

structure Lexer where
  options : Options
  filename : Text
  cursor : Cursor
  /-- The faults accepted so far, in the order in which they were met. -/
  accepted : List Fault
  streaming : Bool

namespace Lexer

def new (options : Options) (filename source : Text) : Lexer :=
  ⟨options, filename, Cursor.ofText source, [], true⟩

/-- Whether the characters of a text lie in the given sets, one after the other. -/
def sees : List Text → Text → Bool
  | [], _ => true
  | _ :: _, [] => false
  | set :: sets, c :: t => c ∈ set && sees sets t

def peek (sets : List Text) (l : Lexer) : Bool :=
  sees sets l.cursor.ahead

/-- Reads one character for each set if the next characters lie in them. -/
def accept (sets : List Text) (l : Lexer) : Bool × Lexer :=
  if l.peek sets then (true, { l with cursor := l.cursor.advance sets.length }) else (false, l)

inductive Answer
  | token (token : Token)
  | refused (fault : Fault)
  | finished
deriving DecidableEq, Repr

/-- The answer to a step, and the lexer after it. -/
def take (l : Lexer) : Step → Answer × Lexer
  | .token token accepted d =>
    (.token token, { l with cursor := d, accepted := l.accepted ++ accepted.toList })
  | .refused fault d => (.refused fault, { l with cursor := d })
  | .finished d => (.finished, { l with cursor := d })

/-- Reads the token that begins with the very next character, which may even be whitespace. At the
end of the text there is nothing to read. -/
def scan (l : Lexer) : Answer × Lexer :=
  l.take ((l.cursor.scan? l.options.mode).getD (.finished l.cursor))

def next (l : Lexer) : Answer × Lexer :=
  if l.streaming then
    match l.take (l.cursor.next l.options) with
    | (.token token, l) => (.token token, l)
    | (answer, l) => (answer, { l with streaming := false })
  else (.finished, l)

def restart (l : Lexer) : Lexer :=
  { l with streaming := true }

/-- Reads the text to its end. The stream of tokens is not touched. -/
def lex (l : Lexer) : Except Fault (List Token) × Lexer :=
  let run := l.cursor.run l.options
  (match run.refusal with
    | some fault => .error fault
    | none => .ok run.tokens,
   { l with cursor := run.after, accepted := l.accepted ++ run.accepted })

def report (l : Lexer) (fault : Fault) : Report :=
  fault.report l.cursor.source l.filename

def diagnostics (l : Lexer) : List Report :=
  l.accepted.map l.report

end Lexer

/-! ## The journal of a run -/

inductive Level
  | debug
  | warning
deriving DecidableEq, Repr

def Level.name : Level → Text
  | .debug => "DEBUG".toList
  | .warning => "WARNING".toList

structure JournalEntry where
  level : Level
  message : Text
deriving DecidableEq, Repr

/-- The warning about a malformed literal that was accepted. -/
def Fault.warning (source filename : Text) (fault : Fault) : JournalEntry :=
  ⟨.warning, (Location.ofOffset source fault.offset filename).text ++
    ": accepted malformed input: ".toList ++ fault.complaint.description⟩

/-- The note on how many literals were accepted although malformed; none if there are none. -/
def acceptedNote (filename : Text) : Nat → List JournalEntry
  | 0 => []
  | n => [⟨.debug, Text.ofNat n ++ " malformed literals accepted in ".toList ++ filename⟩]

def Run.journal (source filename : Text) (run : Run) : List JournalEntry :=
  run.accepted.map (Fault.warning source filename) ++
    match run.refusal with
    | some _ => []
    | none =>
      ⟨.debug, "Lexed ".toList ++ Text.ofNat run.tokens.length ++ " tokens from ".toList ++
        filename⟩ :: acceptedNote filename run.accepted.length

end Lexis
