import Lexis.Scan.Basic

/-!
# String literals

A string literal is any number of characters and escapes between double quotes, on one line. The
functions of this module read on behind the opening quote; `depth` counts the characters read, the
quote included.

Strict reading stops at the first character that cannot go on with a literal. Lenient reading goes
on over line ends, closes the literal before the character that makes no escape, leaves the last
character of the text to the next token, and notes the first flaw. It takes the character right
behind an escape as it is, even if that is a backslash.

Results:
1. `scan_fits`: a literal stays within the text.
-/

namespace Lexis.StringLiteral

open Alphabet

def strict (depth : Nat) : Text → Scan
  | [] => .refused ⟨.unterminated .string, depth⟩
  | c :: t =>
    if c = '"' then .token .string depth none
    else if c ∈ lineTerminators then .refused ⟨.unterminated .string, depth⟩
    else if c = '\\' then
      match t with
      | [] => .refused ⟨.unterminated .string, depth + 1⟩
      | e :: t =>
        if e ∈ escapeLetters then strict (depth + 2) t
        else .refused ⟨.invalidEscape e, depth + 1⟩
    else strict (depth + 1) t

/-- The flaw of a character that lenient reading takes as it is, with `next` behind it. -/
def plainFlaw? (depth : Nat) (c next : Char) : Option Flaw :=
  if c ∈ lineTerminators then some ⟨.unterminated .string, depth⟩
  else if c = '\\' ∧ next ∉ escapeLetters then some ⟨.invalidEscape next, depth + 1⟩
  else none

/-- A literal, in lenient reading. `escaped` says that an escape stands right before the text; a
backslash then has no meaning of its own. `flaw` is the first flaw so far. -/
def lenient (depth : Nat) (escaped : Bool) (flaw : Option Flaw) : Text → Scan
  | [] => .token .string (depth - 1) (flaw.or (some ⟨.unterminated .string, depth⟩))
  | [c] =>
    if c = '"' then .token .string depth flaw
    else
      .token .string (if c = '\\' ∧ ¬escaped then depth else depth - 1)
        (flaw.or (some ⟨.unterminated .string, depth + 1⟩))
  | c :: d :: t =>
    if c = '"' then .token .string depth flaw
    else if c = '\\' ∧ ¬escaped then
      if d ∈ escapeLetters then lenient (depth + 2) true flaw t
      else .token .string depth (flaw.or (some ⟨.invalidEscape d, depth + 1⟩))
    else lenient (depth + 1) false (flaw.or (plainFlaw? depth c d)) (d :: t)

/-- A literal, read behind its opening quote. -/
def scan : Mode → Text → Scan
  | .strict => strict 1
  | .lenient => lenient 1 false none

/-! ## A literal stays within the text -/

theorem strict_fits (depth : Nat) (t : Text) : (strict depth t).Fits (depth + t.length) := by
  fun_induction strict depth t with
  | case1 => simp [Scan.Fits]
  | case2 => simp [Scan.Fits]
  | case3 => simp [Scan.Fits]
  | case4 => simp [Scan.Fits]
  | case5 depth e t _ _ _ ih =>
    refine ih.mono ?_
    simp only [List.length_cons]
    omega
  | case6 => simp [Scan.Fits]
  | case7 depth c t _ _ _ ih =>
    refine ih.mono ?_
    simp only [List.length_cons]
    omega

theorem lenient_fits {depth : Nat} (pos : 0 < depth) (escaped : Bool) (flaw : Option Flaw)
    (t : Text) : (lenient depth escaped flaw t).Fits (depth + t.length) := by
  fun_induction lenient depth escaped flaw t with
  | case1 =>
    simp only [Scan.Fits]
    omega
  | case2 => simp [Scan.Fits]
  | case3 =>
    simp only [Scan.Fits, List.length_cons]
    split <;> omega
  | case4 => simp [Scan.Fits]
  | case5 depth _ flaw c d t _ _ _ ih =>
    refine (ih (by omega)).mono ?_
    simp only [List.length_cons]
    omega
  | case6 => simp [Scan.Fits]
  | case7 depth _ flaw c d t _ _ ih =>
    refine (ih (by omega)).mono ?_
    simp only [List.length_cons]
    omega

theorem scan_fits (mode : Mode) (t : Text) : (scan mode t).Fits (t.length + 1) := by
  have le : 1 + t.length ≤ t.length + 1 := by omega
  cases mode with
  | strict => exact (strict_fits 1 t).mono le
  | lenient => exact (lenient_fits (by decide) false none t).mono le

end Lexis.StringLiteral
