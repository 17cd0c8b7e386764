import Lexis.Scan.Basic
import Lexis.Scan.CharacterLiteral
import Lexis.Scan.StringLiteral

/-!
# The rule that applies

The first character of a text, with at most one more, decides which rule reads it. The modes differ
in two places: a minus sign without a digit behind it is an operator in strict reading and a number
in lenient reading, and a single quote at the very end of the text is an unfinished literal in
strict reading and an operator in lenient reading.

Results:
1. `ofText_fits`: whatever the rule, it stays within the text; for a token and a refusal apart,
   `further_le_of_token` and `depth_le_of_refused`.
-/

namespace Lexis.Scan

open Alphabet

/-- The number of characters of an identifier behind its first. -/
def identifierTail (t : Text) : Nat :=
  (t.takeWhile (· ∈ identChars)).length

/-- The number of characters of an operator behind its first: one if its pair follows. -/
def operatorTail (c : Char) (t : Text) : Nat :=
  match operatorPairs.lookup c with
  | some pair => if t.head? = some pair then 1 else 0
  | none => 0

/-- Whether a number begins with `c`. -/
def startsNumber (mode : Mode) (c : Char) (t : Text) : Bool :=
  c ∈ digits || (c = '-' && (mode = .lenient || t.head?.any (· ∈ digits)))

/-- What is read at the front of the text that has `c` first and `t` behind it. -/
def ofText (mode : Mode) (c : Char) (t : Text) : Scan :=
  if c ∈ identStart then .token .identifier (identifierTail t) none
  else if startsNumber mode c t then Numeral.scan mode c t
  else if c = '\'' ∧ (mode = .strict ∨ t ≠ []) then CharacterLiteral.scan mode t
  else if c = '"' then StringLiteral.scan mode t
  else if c = ' ' then .refused ⟨.noToken c, 0⟩
  else .token .operator (operatorTail c t) none

theorem operatorTail_le (c : Char) (t : Text) : operatorTail c t ≤ t.length := by
  unfold operatorTail
  split
  · cases t with
    | nil => simp
    | cons d t =>
      simp only [List.length_cons]
      split <;> omega
  · exact Nat.zero_le _

theorem ofText_fits (mode : Mode) (c : Char) (t : Text) :
    (ofText mode c t).Fits (t.length + 1) := by
  unfold ofText
  split
  · exact Nat.lt_succ_of_le (List.takeWhile_prefix _).length_le
  split
  · exact Numeral.scan_fits mode c t
  split
  · exact CharacterLiteral.scan_fits mode t
  split
  · exact StringLiteral.scan_fits mode t
  split
  · exact Nat.zero_le _
  · exact Nat.lt_succ_of_le (operatorTail_le c t)

theorem further_le_of_token {mode : Mode} {c : Char} {t : Text} {kind : Kind} {n : Nat}
    {flaw : Option Flaw} (h : ofText mode c t = .token kind n flaw) : n ≤ t.length := by
  have fits := ofText_fits mode c t
  rw [h] at fits
  exact Nat.le_of_lt_succ fits

theorem depth_le_of_refused {mode : Mode} {c : Char} {t : Text} {flaw : Flaw}
    (h : ofText mode c t = .refused flaw) : flaw.depth ≤ t.length + 1 := by
  have fits := ofText_fits mode c t
  rwa [h] at fits

end Lexis.Scan
