import Lexis.Text.Basic

/-!
# What a comparison disregards

Names and settings are compared without regard to case, and some of them without the blank
characters at their ends.

The blank characters are the white space of Unicode together with the four information separators
U+001C to U+001F.

All the names compared with are plain ASCII. So each case mapping of Unicode is needed only where its
result is ASCII: the letters of ASCII themselves, and the few other characters listed here (long s,
sharp s, dotless i, the Kelvin sign, and the ligatures of Latin). Every other character is left as it
is. It is not ASCII, and neither is its image, so a text equals an ASCII name after these mappings
exactly when it does after the full ones.

Results:
1. `isBlank_of_isWhitespace`: the blanks of ASCII are among the blank characters.
-/

namespace Lexis.Text

/-! ## Blank characters -/

/-- The code points of the blank characters, in increasing order. -/
def blanks : List Nat :=
  [0x9, 0xa, 0xb, 0xc, 0xd, 0x1c, 0x1d, 0x1e, 0x1f, 0x20, 0x85, 0xa0, 0x1680, 0x2000, 0x2001,
   0x2002, 0x2003, 0x2004, 0x2005, 0x2006, 0x2007, 0x2008, 0x2009, 0x200a, 0x2028, 0x2029, 0x202f,
   0x205f, 0x3000]

def isBlank (c : Char) : Bool :=
  blanks.contains c.toNat

def trimmed (t : Text) : Text :=
  ((t.dropWhile isBlank).reverse.dropWhile isBlank).reverse

theorem isBlank_of_isWhitespace {c : Char} (h : c.isWhitespace) : isBlank c = true := by
  simp only [Char.isWhitespace, Bool.or_eq_true, decide_eq_true_eq] at h
  rcases h with ((h | h) | h) | h <;> subst h <;> decide

/-! ## Letter case -/

/-- The characters outside ASCII whose upper case is ASCII. -/
def upperCases : List (Char × Text) :=
  [('ß', ['S', 'S']), ('ı', ['I']), ('ſ', ['S']), ('ﬀ', ['F', 'F']), ('ﬁ', ['F', 'I']),
   ('ﬂ', ['F', 'L']), ('ﬃ', ['F', 'F', 'I']), ('ﬄ', ['F', 'F', 'L']), ('ﬅ', ['S', 'T']),
   ('ﬆ', ['S', 'T'])]

/-- The characters outside ASCII whose case folding is ASCII. -/
def caseFoldings : List (Char × Text) :=
  [('ß', ['s', 's']), ('ſ', ['s']), ('ẞ', ['s', 's']), ('\u212a', ['k']), ('ﬀ', ['f', 'f']),
   ('ﬁ', ['f', 'i']), ('ﬂ', ['f', 'l']), ('ﬃ', ['f', 'f', 'i']), ('ﬄ', ['f', 'f', 'l']),
   ('ﬅ', ['s', 't']), ('ﬆ', ['s', 't'])]

def lowerCases : List (Char × Text) :=
  [('\u212a', ['k'])]

/-- The text with each character replaced by its image in the table, or else by `plain` of it. -/
def mapCase (table : List (Char × Text)) (plain : Char → Char) (t : Text) : Text :=
  t.flatMap fun c => (table.lookup c).getD [plain c]

def upper (t : Text) : Text := mapCase upperCases Char.toUpper t

def lower (t : Text) : Text := mapCase lowerCases Char.toLower t

def folded (t : Text) : Text := mapCase caseFoldings Char.toLower t

end Lexis.Text
