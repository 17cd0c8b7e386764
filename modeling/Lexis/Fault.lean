import Lexis.Text.Basic

/-!
# Faults

What can be wrong with a literal, and where. While a token is read its flaw is placed relative to
the token's first character; once the token's offset is known, the flaw becomes a fault with
offsets in the whole text. Moving a text along moves its faults along (`place_add`).
-/

namespace Lexis

/-- How malformed literals are treated: refused, or accepted and noted. -/
inductive Mode
  | strict
  | lenient
deriving DecidableEq, Repr

def Mode.name : Mode → Text
  | .strict => "strict".toList
  | .lenient => "lenient".toList

inductive Literal
  | character
  | string
deriving DecidableEq, Repr

def Literal.name : Literal → Text
  | .character => "character".toList
  | .string => "string".toList

/-- What is wrong: a literal is not closed before the line or the text ends, a backslash makes no
escape with what follows, a control stands in a character literal as it is, a character literal
holds nothing, or no token begins with a character. -/
inductive Cause
  | unterminated (literal : Literal)
  | invalidEscape (letter : Char)
  | rawControl (control : Char)
  | emptyCharacter
  | noToken (char : Char)
deriving DecidableEq, Repr

/-- What is wrong with a token, at some depth: the number of its characters before the place that
is to be blamed. -/
structure Flaw where
  cause : Cause
  depth : Nat
deriving DecidableEq, Repr

/-- What is wrong in a text: the cause, the offset at which the token concerned begins, and the
offset to be blamed, which is the length of the text where the text ended too early. -/
structure Fault where
  cause : Cause
  start : Nat
  offset : Nat
deriving DecidableEq, Repr

/-- The flaw of a token that begins at `start`. -/
def Flaw.place (start : Nat) (flaw : Flaw) : Fault :=
  ⟨flaw.cause, start, start + flaw.depth⟩

/-- The fault of the same text moved `n` characters along. -/
def Fault.shift (n : Nat) (fault : Fault) : Fault :=
  { fault with start := n + fault.start, offset := n + fault.offset }

theorem Flaw.place_add (n start : Nat) (flaw : Flaw) :
    flaw.place (n + start) = (flaw.place start).shift n := by
  simp [Flaw.place, Fault.shift, Nat.add_assoc]

end Lexis
