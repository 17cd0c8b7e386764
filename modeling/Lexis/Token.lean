import Lexis.Text.Quoted

/-!
# Tokens

A token is a piece of source text together with its class and the offset of its first character.
The piece is kept as it stands in the source, quotes and escapes included.
-/

namespace Lexis

inductive Kind
  | identifier
  | integer
  | decimal
  | character
  | string
  | operator
deriving DecidableEq, Repr

namespace Kind

/-- The classes in the order of their numbers. -/
def all : List Kind := [identifier, integer, decimal, character, string, operator]

def name : Kind → Text
  | identifier => "IDENTIFIER".toList
  | integer => "INTEGER".toList
  | decimal => "DECIMAL".toList
  | character => "CHARACTER".toList
  | string => "STRING".toList
  | operator => "OPERATOR".toList

/-- The number of a class, counted from one. -/
def number : Kind → Nat
  | identifier => 1
  | integer => 2
  | decimal => 3
  | character => 4
  | string => 5
  | operator => 6

theorem mem_all (kind : Kind) : kind ∈ all := by
  cases kind <;> decide

theorem name_injective {a b : Kind} (h : a.name = b.name) : a = b := by
  cases a <;> cases b <;> revert h <;> decide

end Kind

/-- A classified piece of source text. The offset is an integer, since a token made by hand may lie
anywhere; the offsets that the lexer gives are natural numbers. -/
structure Token where
  kind : Kind
  lexeme : Text
  start : Int
deriving DecidableEq, Repr

namespace Token

def stop (t : Token) : Int := t.start + t.lexeme.length

/-- The token on one line, as `Token(KIND, 'lexeme', @offset)`. -/
def description (t : Token) : Text :=
  "Token(".toList ++ t.kind.name ++ ", ".toList ++ Text.quoted t.lexeme ++ ", @".toList ++
    Text.ofInt t.start ++ ")".toList

end Token

end Lexis
