import Lexis.Alphabet
import Lexis.Fault
import Lexis.Token

/-!
# Scans

What the rules for tokens make of the front of a text. A token is at least one character long, so
its length is given as the number of characters that follow its first. A refusal happens exactly at
the character to be blamed: all that stands before it has been read.

Each rule comes with the law that it stays within the text (`Scan.Fits`). The rule for numbers is
the first: a number is a digit or a minus sign, then digits, then perhaps a point and digits. Only
one point belongs to it. Strict reading wants a digit behind the point, lenient reading any character
at all. A zero in front forms a number of its own unless a point follows it.

Results:
1. `Numeral.scan_fits`: a number stays within the text.
-/

namespace Lexis

inductive Scan
  /-- A token of one character and `further` more. The flaw is the first one of a malformed literal
  that is accepted all the same. -/
  | token (kind : Kind) (further : Nat) (flaw : Option Flaw)
  /-- No token: the characters up to the depth of the flaw have been read. -/
  | refused (flaw : Flaw)
deriving DecidableEq, Repr

/-- The scan reads no more than `n` characters. -/
def Scan.Fits (n : Nat) : Scan → Prop
  | .token _ further _ => further < n
  | .refused flaw => flaw.depth ≤ n

theorem Scan.Fits.mono {n m : Nat} {s : Scan} (h : s.Fits n) (le : n ≤ m) : s.Fits m := by
  cases s with
  | token kind further flaw => exact Nat.lt_of_lt_of_le h le
  | refused flaw => exact Nat.le_trans h le

/-! ## Numbers -/

namespace Numeral

open Alphabet

/-- The number of digits at the front of a text. -/
def digitRun (t : Text) : Nat :=
  (t.takeWhile (· ∈ digits)).length

/-- The length of the point and the digits at the front of a text, if they belong to the number
before them. -/
def fraction? (mode : Mode) : Text → Option Nat
  | '.' :: d :: t =>
    if mode = .strict ∧ d ∉ digits then none else some (1 + digitRun (d :: t))
  | _ => none

/-- The rest of a number, behind its first digit or its sign. -/
def tail (mode : Mode) (t : Text) : Kind × Nat :=
  match fraction? mode (t.drop (digitRun t)) with
  | some n => (.decimal, digitRun t + n)
  | none => (.integer, digitRun t)

/-- The number that begins with `first`, a digit or a sign, and goes on in `t`. -/
def scan (mode : Mode) (first : Char) (t : Text) : Scan :=
  if first = '0' ∧ t.head? ≠ some '.' then .token .integer 0 none
  else .token (tail mode t).1 (tail mode t).2 none

theorem digitRun_le (t : Text) : digitRun t ≤ t.length :=
  (List.takeWhile_prefix _).length_le

theorem fraction?_le {mode : Mode} {t : Text} {n : Nat} (h : fraction? mode t = some n) :
    n ≤ t.length := by
  unfold fraction? at h
  split at h
  · rename_i d t
    split at h
    · cases h
    · have := digitRun_le (d :: t)
      cases h
      simp only [List.length_cons] at this ⊢
      omega
  · cases h

theorem tail_le (mode : Mode) (t : Text) : (tail mode t).2 ≤ t.length := by
  have hd := digitRun_le t
  unfold tail
  split
  · rename_i n h
    have := fraction?_le h
    simp only [List.length_drop] at this
    simp only
    omega
  · exact hd

theorem scan_fits (mode : Mode) (first : Char) (t : Text) :
    (scan mode first t).Fits (t.length + 1) := by
  unfold scan
  split
  · exact Nat.succ_pos _
  · exact Nat.lt_succ_of_le (tail_le mode t)

end Numeral

end Lexis
