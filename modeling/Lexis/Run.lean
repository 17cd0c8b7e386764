import Lexis.Cursor
import Lexis.Options
import Lexis.Scan.Rule

/-!
# Reading tokens

One step of a cursor gives out one token: it drops the whitespace in front, applies the rule for
the next token, and either gives the token out or stops at the character to be blamed. A run takes
such steps until the text is used up or a step is refused. The cursor keeps its place after a
refusal, and what was read before it stays pending.

Results:
1. `length_ahead_of_next_token`: a step that gives out a token leaves less text ahead, so every
   run ends.
-/

namespace Lexis

/-- What one step gives: a token, with the fault in it if it was malformed and accepted, or the
fault for which the text cannot go on in the way it has begun, or nothing, since the text is used
up. -/
inductive Step
  | token (token : Token) (accepted : Option Fault) (after : Cursor)
  | refused (fault : Fault) (after : Cursor)
  | finished (after : Cursor)

namespace Cursor

/-- Applies the rule for the character ahead, without regard to whitespace. At the end of the text
there is no rule to apply. -/
def scan? (mode : Mode) (c : Cursor) : Option Step :=
  match c.ahead with
  | [] => none
  | x :: t =>
    match Scan.ofText mode x t with
    | .token kind further flaw =>
      let d := c.advance (further + 1)
      some (.token (d.token kind) (flaw.map (Flaw.place c.index)) d.skip)
    | .refused flaw => some (.refused (flaw.place c.index) (c.advance flaw.depth))

/-- Drops the whitespace ahead. With the first such character the pending lexeme is dropped too. -/
def skipWhitespace (whitespace : Text) (c : Cursor) : Cursor :=
  match c.ahead.takeWhile (· ∈ whitespace) with
  | [] => c
  | run => (c.advance run.length).skip

def next (options : Options) (c : Cursor) : Step :=
  let d := c.skipWhitespace options.whitespace
  (d.scan? options.mode).getD (.finished d)

theorem length_ahead_skipWhitespace (whitespace : Text) (c : Cursor) :
    (c.skipWhitespace whitespace).ahead.length ≤ c.ahead.length := by
  unfold skipWhitespace
  split
  · exact Nat.le_refl _
  · simp

theorem length_ahead_of_scan?_token {mode : Mode} {c d : Cursor} {token : Token}
    {accepted : Option Fault} (h : c.scan? mode = some (.token token accepted d)) :
    d.ahead.length < c.ahead.length := by
  unfold scan? at h
  split at h
  · cases h
  · rename_i x t ha
    split at h
    · cases h
      simp only [ahead_skip, ahead_advance, ha, List.drop_succ_cons, List.length_drop,
        List.length_cons]
      omega
    · cases h

/-- A step that gives out a token leaves less text ahead. -/
theorem length_ahead_of_next_token {options : Options} {c d : Cursor} {token : Token}
    {accepted : Option Fault} (h : c.next options = .token token accepted d) :
    d.ahead.length < c.ahead.length := by
  have hw := length_ahead_skipWhitespace options.whitespace c
  unfold next at h
  cases hs : (c.skipWhitespace options.whitespace).scan? options.mode with
  | none => simp [hs] at h
  | some step =>
    simp only [hs, Option.getD_some] at h
    subst h
    have := length_ahead_of_scan?_token hs
    omega

end Cursor

/-- What a run gives: its tokens, the faults accepted in them, and the fault that ended it, if one
did, in front of the text left over. -/
structure Run where
  tokens : List Token
  accepted : List Fault
  refusal : Option Fault
  after : Cursor

def Run.cons (token : Token) (accepted : Option Fault) (run : Run) : Run :=
  { run with tokens := token :: run.tokens, accepted := accepted.toList ++ run.accepted }

/-- Gives out tokens until the text is used up or a step is refused. -/
def Cursor.run (options : Options) (c : Cursor) : Run :=
  match _h : c.next options with
  | .token token accepted d => (d.run options).cons token accepted
  | .refused fault d => ⟨[], [], some fault, d⟩
  | .finished d => ⟨[], [], none, d⟩
termination_by c.ahead.length
decreasing_by exact Cursor.length_ahead_of_next_token _h

def lex (options : Options) (source : Text) : Run :=
  (Cursor.ofText source).run options

end Lexis
