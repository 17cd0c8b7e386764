import Lexis.Token

/-!
# Listings

Tokens are listed in two forms: one line of text for each, or one JSON array of objects.

A text is a JSON string in ASCII. The quote, the backslash and the five controls with a letter
follow a backslash; every other character outside the range from the space to the tilde is given
by its UTF-16 units.
-/

namespace Lexis.Json

/-- One UTF-16 unit in four hexadecimal digits. -/
def unit (n : Nat) : Text :=
  '\\' :: 'u' :: Text.ofNatHex 4 n

def charText (c : Char) : Text :=
  if c = '"' ∨ c = '\\' then ['\\', c]
  else if c = '\x08' then ['\\', 'b']
  else if c = '\t' then ['\\', 't']
  else if c = '\n' then ['\\', 'n']
  else if c = '\x0c' then ['\\', 'f']
  else if c = '\r' then ['\\', 'r']
  else if 0x20 ≤ c.toNat ∧ c.toNat ≤ 0x7e then [c]
  else if c.toNat < 0x10000 then unit c.toNat
  else unit (0xd800 + (c.toNat - 0x10000) / 0x400) ++ unit (0xdc00 + (c.toNat - 0x10000) % 0x400)

def string (t : Text) : Text :=
  '"' :: t.flatMap charText ++ ['"']

end Lexis.Json

namespace Lexis

namespace Token

/-- The token on one line: the offset in a column of six, the class in one of ten, the lexeme
between quotes. -/
def line (t : Token) : Text :=
  Text.padLeft ' ' 6 (Text.ofInt t.start) ++ "  ".toList ++
    Text.padRight ' ' 10 t.kind.name ++ "  ".toList ++ Text.quoted t.lexeme

/-- The lines of the JSON object for a token. -/
def jsonObject (t : Token) : Text :=
  "  \x7b\n    \"kind\": ".toList ++ Json.string t.kind.name ++
    ",\n    \"lexeme\": ".toList ++ Json.string t.lexeme ++
    ",\n    \"start_offset\": ".toList ++ Text.ofInt t.start ++ "\n  \x7d".toList

end Token

namespace Listing

def text (tokens : List Token) : Text :=
  Text.joinLines (tokens.map Token.line)

/-- The tokens as a JSON array with two spaces for each level. -/
def json : List Token → Text
  | [] => "[]".toList
  | tokens =>
    "[\n".toList ++ [',', '\n'].intercalate (tokens.map Token.jsonObject) ++ "\n]".toList

end Listing

end Lexis
