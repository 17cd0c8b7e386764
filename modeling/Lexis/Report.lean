import Lexis.Fault
import Lexis.Text.Quoted

/-!
# Error reports

A fault is shown to the writer of the text in up to four parts, each on a line of its own: the
place and a description, the line of the source, a caret under the character to be blamed, and a
hint. A report without a location gives the offset instead, and shows neither line nor caret.

A location is a place in a text as its reader sees it: a line and a column, both counted from one.
Only the line feed ends a line. An offset before the text counts as its start, and one behind it as
its end.
-/

namespace Lexis

/-! ## Locations -/

structure Location where
  filename : Text
  line : Int
  column : Int
deriving DecidableEq, Repr

namespace Location

def text (l : Location) : Text :=
  l.filename ++ ':' :: Text.ofInt l.line ++ ':' :: Text.ofInt l.column

/-- The offset moved to the nearest end of the text if it lies outside. -/
def clamp (source : Text) (offset : Int) : Nat :=
  min offset.toNat source.length

theorem clamp_of_le {source : Text} {n : Nat} (le : n ≤ source.length) : clamp source n = n :=
  Nat.min_eq_left le

/-- The part of the line that stands before its reader when `before` has been read. -/
def lineSoFar (before : Text) : Text :=
  (before.reverse.takeWhile (· ≠ '\n')).reverse

def ofOffset (source : Text) (offset : Int) (filename : Text) : Location :=
  let before := source.take (clamp source offset)
  ⟨filename, before.count '\n' + 1, (lineSoFar before).length + 1⟩

end Location

/-- A line without the carriage returns at its end. -/
def withoutReturns (line : Text) : Text :=
  (line.reverse.dropWhile (· = '\r')).reverse

/-- The line that holds the character at an offset, without what ends it. -/
def sourceLine (source : Text) (offset : Int) : Text :=
  let place := Location.clamp source offset
  withoutReturns
    (Location.lineSoFar (source.take place) ++ (source.drop place).takeWhile (· ≠ '\n'))

/-! ## Complaints and reports -/

/-- What a report says is wrong, with all that its wording needs. -/
inductive Complaint
  | other (description : Text) (hint : Option Text)
  /-- A literal of some kind, opened at an offset and never closed. -/
  | unterminated (literal : Text) (opened : Int)
  /-- A backslash before something that makes no escape with it. -/
  | invalidEscape (escape : Text)
  | unexpected (char : Char) (context : Option Text)
  | emptyCharacter
deriving DecidableEq, Repr

namespace Complaint

/-- A character in quotes and as a number of at least two hexadecimal digits. -/
def characterText (c : Char) : Text :=
  Text.quoted [c] ++ " (0x".toList ++ (Text.ofNatHex 2 c.toNat).map Char.toUpper ++ ")".toList

def description : Complaint → Text
  | other description _ => description
  | unterminated literal _ => "unterminated ".toList ++ literal ++ " literal".toList
  | invalidEscape escape => "invalid escape sequence '\\".toList ++ escape ++ "'".toList
  | unexpected char context =>
    "unexpected character ".toList ++ characterText char ++
      match context.getD [] with
      | [] => []
      | context => ' ' :: context
  | emptyCharacter => "empty character literal".toList

/-- The quote that closes a literal: the double one closes strings only. -/
def closingQuote (literal : Text) : Char :=
  if literal = Literal.string.name then '"' else '\''

def hint : Complaint → Option Text
  | other _ hint => hint
  | unterminated literal opened =>
    some ("add a closing ".toList ++ Text.quoted [closingQuote literal] ++
      " to complete the ".toList ++ literal ++ " (opened at offset ".toList ++
      Text.ofInt opened ++ ")".toList)
  | invalidEscape _ => some "valid escapes are \\b \\n \\r \\t \\' \\\" and \\\\".toList
  | unexpected _ _ => none
  | emptyCharacter => some "a character literal holds exactly one character or escape".toList

end Complaint

/-- A complaint about one place of a source text. -/
structure Report where
  complaint : Complaint
  offset : Int
  location : Option Location
  sourceLine : Option Text
deriving DecidableEq, Repr

namespace Report

def description (r : Report) : Text := r.complaint.description

def hint (r : Report) : Option Text := r.complaint.hint

def headline (r : Report) : Text :=
  match r.location with
  | some l => l.text ++ ": error: ".toList ++ r.description
  | none =>
    "error: ".toList ++ r.description ++ " (at offset ".toList ++ Text.ofInt r.offset ++ ")".toList

def margin : Nat := 4

/-- The caret under a column; there is none under a column before the first. -/
def caretLine (column : Int) : List Text :=
  if 0 < column then [List.replicate (margin + column.toNat - 1) ' ' ++ ['^']] else []

def excerpt (r : Report) : List Text :=
  match r.sourceLine, r.location with
  | some line, some l => (List.replicate margin ' ' ++ line) :: caretLine l.column
  | _, _ => []

/-- The line for the hint, unless there is none or nothing in it. -/
def hintLine (r : Report) : List Text :=
  match r.hint.getD [] with
  | [] => []
  | hint => ["hint: ".toList ++ hint]

def lines (r : Report) : List Text :=
  r.headline :: (r.excerpt ++ r.hintLine)

def text (r : Report) : Text :=
  Text.joinLines r.lines

end Report

def Fault.complaint (fault : Fault) : Complaint :=
  match fault.cause with
  | .unterminated literal => .unterminated literal.name fault.start
  | .invalidEscape letter => .invalidEscape [letter]
  | .rawControl control =>
    .unexpected control (some "in character literal (use an escape)".toList)
  | .emptyCharacter => .emptyCharacter
  | .noToken char => .unexpected char (some "with no matching token rule".toList)

/-- A literal that is not closed is said to be opened where the fault's token begins. -/
theorem Fault.opened_of_complaint {fault : Fault} {literal : Text} {opened : Int}
    (h : fault.complaint = .unterminated literal opened) : opened = fault.start := by
  rw [complaint] at h
  split at h <;> cases h
  rfl

/-- The report of a fault in a named source text. -/
def Fault.report (source filename : Text) (fault : Fault) : Report where
  complaint := fault.complaint
  offset := fault.offset
  location := some (Location.ofOffset source fault.offset filename)
  sourceLine := some (sourceLine source fault.offset)

end Lexis
