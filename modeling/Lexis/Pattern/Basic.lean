import Lexis.Alphabet
import Lexis.Pattern.Regex
import Lexis.Text.Normal

/-!
# Validation patterns

Named forms that a text as a whole may have. They are independent of the lexer.

* `email`: a name of at least two characters, an `@`, and labels separated by points, the last one
  of three small letters;
* `oddStrings`: any text of odd length from 11 to 19;
* `characterList`: single-quoted characters between brackets, separated by a comma and at most one
  space;
* `decimal`: digits on both sides of a point, without a zero too many in front;
* `string`: a string literal of the language, without line ends.
-/

namespace Lexis

open Alphabet

/-- The validation patterns. -/
inductive Pattern
  | characterList
  | decimal
  | email
  | oddStrings
  | string
deriving DecidableEq, Repr

/-- No pattern has the name asked for. -/
structure UnknownPattern where
  name : Text
  known : List Text
deriving DecidableEq, Repr

def UnknownPattern.message (e : UnknownPattern) : Text :=
  "unknown pattern '".toList ++ e.name ++ "' (known: ".toList ++ Text.joinCommas e.known ++
    ")".toList

namespace Pattern

/-- The patterns in the order of their names. -/
def all : List Pattern := [characterList, decimal, email, oddStrings, string]

def name : Pattern → Text
  | characterList => "CHARACTER_LIST".toList
  | decimal => "DECIMAL".toList
  | email => "EMAIL".toList
  | oddStrings => "ODD_STRINGS".toList
  | string => "STRING".toList

def smallLetters : Text := "abcdefghijklmnopqrstuvwxyz".toList

def nameChar (c : Char) : Bool := c ∈ alphanumeric || c = '.' || c = '_'
def firstLabelChar (c : Char) : Bool := c ∈ alphanumeric || c = '~'
def labelChar (c : Char) : Bool := c ∈ alphanumeric || c = '-'
def isDigit (c : Char) : Bool := c ∈ digits

open Regex in
def emailRegex : Regex :=
  inOrder [times 2 (one nameChar), many (one nameChar), literal ['@'],
    atLeastOnce (one firstLabelChar), literal ['.'],
    many (both (atLeastOnce (one labelChar)) (literal ['.'])), times 3 (one (· ∈ smallLetters))]

/-- Any two characters. -/
def pair : Regex := Regex.times 2 (.one fun _ => true)

open Regex in
def oddStringsRegex : Regex :=
  inOrder [times 5 pair, atMost pair 4, one fun _ => true]

open Regex in
def listItem : Regex :=
  inOrder [literal ['\''], one (· ∉ characterExcluded), literal ['\'']]

open Regex in
def characterListRegex : Regex :=
  inOrder [literal ['['],
    optional (both listItem (many (inOrder [literal [','], optional (literal [' ']), listItem]))),
    literal [']']]

open Regex in
def decimalRegex : Regex :=
  inOrder [optional (literal ['-']),
    either (literal ['0']) (both (one fun c => isDigit c && c ≠ '0') (many (one isDigit))),
    literal ['.'], atLeastOnce (one isDigit)]

open Regex in
def stringRegex : Regex :=
  inOrder [literal ['"'],
    many (either (one fun c => c ≠ '"' && c ≠ '\\' && c ∉ lineTerminators)
      (both (literal ['\\']) (one (· ∈ escapeLetters)))),
    literal ['"']]

/-- The form that a pattern stands for. -/
def regex : Pattern → Regex
  | characterList => characterListRegex
  | decimal => decimalRegex
  | email => emailRegex
  | oddStrings => oddStringsRegex
  | string => stringRegex

/-- Whether the whole text has the form. -/
def accepts (p : Pattern) (t : Text) : Bool := p.regex.accepts t

/-- The name that a request is about: without blanks around it, in capitals, and with underscores
for its hyphens. -/
def requestedName (request : Text) : Text :=
  (Text.upper (Text.trimmed request)).map fun c => if c = '-' then '_' else c

/-- The pattern of a name. -/
def find (request : Text) : Except UnknownPattern Pattern :=
  match all.find? (·.name = requestedName request) with
  | some p => .ok p
  | none => .error ⟨request, all.map name⟩

theorem mem_all (p : Pattern) : p ∈ all := by
  cases p <;> decide

/-- Each pattern is found by its name. -/
theorem find_name (p : Pattern) : find p.name = .ok p := by
  cases p <;> rfl

end Pattern

end Lexis
