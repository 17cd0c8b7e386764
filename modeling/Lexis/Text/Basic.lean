/-!
# Texts

A text is the list of its characters. Every length, offset and column of this library therefore
counts characters, and a rule about texts can be stated by recursion on them.

This module holds the numerals and the joining of lines that messages and listings are made of.
-/

namespace Lexis

/-- A text is the list of its characters, in reading order. -/
abbrev Text := List Char

namespace Text

def ofNat (n : Nat) : Text :=
  Nat.toDigits 10 n

def ofInt (n : Int) : Text :=
  if n < 0 then '-' :: ofNat n.natAbs else ofNat n.natAbs

def padLeft (fill : Char) (width : Nat) (t : Text) : Text :=
  List.replicate (width - t.length) fill ++ t

def padRight (fill : Char) (width : Nat) (t : Text) : Text :=
  t ++ List.replicate (width - t.length) fill

/-- The hexadecimal numeral of a number in small digits, with leading zeros up to `width`. -/
def ofNatHex (width n : Nat) : Text :=
  padLeft '0' width (Nat.toDigits 16 n)

/-- The lines written one under the other. -/
def joinLines (lines : List Text) : Text :=
  ['\n'].intercalate lines

def joinCommas (items : List Text) : Text :=
  [',', ' '].intercalate items

end Text

end Lexis
