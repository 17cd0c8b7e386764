import Lexis.Token

/-!
# Cursors

A cursor parts a text in three: the characters passed, which have been given out in tokens or
dropped, the pending ones, which have been read since, and those ahead. Reading moves characters
from the front of the text ahead to the end of the pending lexeme; giving out a token and dropping
both let the pending lexeme join what is passed.

Results:
1. `source_advance`, `source_skip`: the text stays the same whatever the cursor does.
   `length_source`: its length.
2. `index_advance`, `index_skip`: reading moves the index by the characters read, and dropping
   leaves it where it is.
3. `advance_advance`: reading on is reading more at once.
-/

namespace Lexis

/-- A place in a text, together with the lexeme read up to it. The characters passed have been given
out or dropped; they are held the nearest first, together with their number, which is the offset of
the pending lexeme. -/
structure Cursor where
  passed : Text
  start : Nat
  pending : Text
  ahead : Text
  start_eq : start = passed.length

namespace Cursor

def ofText (t : Text) : Cursor := ⟨[], 0, [], t, rfl⟩

def source (c : Cursor) : Text := c.passed.reverse ++ (c.pending ++ c.ahead)

/-- The number of characters read. -/
def index (c : Cursor) : Nat := c.start + c.pending.length

def remaining (c : Cursor) : Nat := c.ahead.length

/-- Whether there is a character `n` places on, or anything behind that place. Every place before
the cursor counts as there. -/
def has (c : Cursor) (n : Int) : Bool := n < c.remaining

/-- The character `n` places on. A place before the start of the text is counted from its end. -/
def peek? (c : Cursor) (n : Int) : Option Char :=
  let place := c.index + n
  let wrapped := if place < 0 then place + c.source.length else place
  if wrapped < 0 then none else c.source[wrapped.toNat]?

/-- Reads the next `n` characters, or as many as there are. -/
def advance (c : Cursor) (n : Nat) : Cursor :=
  { c with pending := c.pending ++ c.ahead.take n, ahead := c.ahead.drop n }

def skip (c : Cursor) : Cursor where
  passed := c.pending.reverse ++ c.passed
  start := c.start + c.pending.length
  pending := []
  ahead := c.ahead
  start_eq := by simp [c.start_eq, Nat.add_comm]

def token (c : Cursor) (kind : Kind) : Token := ⟨kind, c.pending, c.start⟩

@[simp] theorem source_ofText (t : Text) : (ofText t).source = t := rfl

@[simp] theorem source_advance (c : Cursor) (n : Nat) : (c.advance n).source = c.source := by
  simp [source, advance]

@[simp] theorem source_skip (c : Cursor) : c.skip.source = c.source := by
  simp [source, skip]

/-- Each character of the text is read or is ahead. -/
theorem length_source (c : Cursor) : c.source.length = c.index + c.ahead.length := by
  simp only [source, index, c.start_eq, List.length_append, List.length_reverse]
  omega

@[simp] theorem index_advance (c : Cursor) (n : Nat) :
    (c.advance n).index = c.index + min n c.ahead.length := by
  simp [index, advance, Nat.add_assoc]

@[simp] theorem index_skip (c : Cursor) : c.skip.index = c.index := by
  simp [index, skip]

@[simp] theorem ahead_advance (c : Cursor) (n : Nat) : (c.advance n).ahead = c.ahead.drop n := rfl

@[simp] theorem ahead_skip (c : Cursor) : c.skip.ahead = c.ahead := rfl

@[simp] theorem advance_zero (c : Cursor) : c.advance 0 = c := by
  simp [advance]

@[simp] theorem advance_advance (c : Cursor) (m n : Nat) :
    (c.advance m).advance n = c.advance (m + n) := by
  simp [advance, List.take_add]

/-- Dropping what is read in two parts is dropping it at once. -/
theorem skip_advance_skip (c : Cursor) (m n : Nat) :
    ((c.advance m).skip.advance n).skip = (c.advance (m + n)).skip := by
  simp [advance, skip, List.take_add, Nat.add_assoc]

end Cursor

end Lexis
