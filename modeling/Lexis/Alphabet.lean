import Lexis.Text.Basic

/-!
# The alphabet of the language

The sets of characters that the rules for tokens are stated with, each in the order of code
points, and the operators that are written with two characters.

Results:
1. `identStart_subset_tokenStarts`, `digits_subset_tokenStarts`: what begins an identifier or a
   number begins a token.
2. `not_mem_tokenStarts_of_default`, `not_mem_tokenStarts_of_lineTerminator`: what is skipped by
   default, or ends a line, begins none.
-/

namespace Lexis.Alphabet

def digits : Text := "0123456789".toList

def letters : Text := "ABCDEFGHIJKLMNOPQRSTUVWXYZabcdefghijklmnopqrstuvwxyz".toList

def alphanumeric : Text := digits ++ letters

def identStart : Text := '@' :: letters

def identChars : Text :=
  "-0123456789ABCDEFGHIJKLMNOPQRSTUVWXYZ_abcdefghijklmnopqrstuvwxyz".toList

/-- What may follow a backslash in a literal. -/
def escapeLetters : Text := ['"', '\'', '\\', 'b', 'n', 'r', 't']

/-- What ends a line, and with it an unfinished literal. -/
def lineTerminators : Text := ['\n', '\r']

/-- The controls that a character literal holds only as escapes: backspace, tab, line feed, form
feed and carriage return. -/
def controlChars : Text := ['\x08', '\t', '\n', '\x0c', '\r']

/-- What is never the plain character of a character literal. -/
def characterExcluded : Text := ['\n', '\r', '\'', '\\']

/-- The characters that form an operator with the one beside them when it follows. -/
def operatorPairs : List (Char × Char) := [('!', '='), ('&', '&'), ('=', '='), ('|', '|')]

/-- What begins a token of its own kind and so may not be skipped between tokens. -/
def tokenStarts : Text :=
  "\"'-0123456789@ABCDEFGHIJKLMNOPQRSTUVWXYZabcdefghijklmnopqrstuvwxyz".toList

/-- What is skipped between tokens unless something else is asked for. -/
def defaultWhitespace : Text := [' ', '\t']

theorem identStart_subset_tokenStarts : identStart ⊆ tokenStarts := by decide

theorem digits_subset_tokenStarts : digits ⊆ tokenStarts := by decide

theorem space_not_mem_tokenStarts : ' ' ∉ tokenStarts := by decide

theorem not_mem_tokenStarts_of_default {c : Char} (h : c ∈ defaultWhitespace) :
    c ∉ tokenStarts := by
  have tab : '\t' ∉ tokenStarts := by decide
  simp only [defaultWhitespace, List.mem_cons, List.not_mem_nil, or_false] at h
  rcases h with rfl | rfl
  · exact space_not_mem_tokenStarts
  · exact tab

theorem not_mem_tokenStarts_of_lineTerminator {c : Char} (h : c ∈ lineTerminators) :
    c ∉ tokenStarts := by
  have newline : '\n' ∉ tokenStarts := by decide
  have carriageReturn : '\r' ∉ tokenStarts := by decide
  simp only [lineTerminators, List.mem_cons, List.not_mem_nil, or_false] at h
  rcases h with rfl | rfl
  · exact newline
  · exact carriageReturn

end Lexis.Alphabet
