import Lexis.Scan.Basic

/-!
# Character literals

A character literal is one character or one escape between single quotes. The functions of this
module read on behind the opening quote; `depth` counts the characters read, the quote included.

Strict reading stops at the first character that cannot go on with a literal. Lenient reading makes
a token of what it finds, closes it as soon as it must, and notes the first flaw.

Results:
1. `scan_fits`: a literal stays within the text.
-/

namespace Lexis.CharacterLiteral

open Alphabet

/-- The closing quote, in strict reading. -/
def close (depth : Nat) : Text → Scan
  | '\'' :: _ => .token .character depth none
  | _ => .refused ⟨.unterminated .character, depth⟩

def strict : Text → Scan
  | [] => .refused ⟨.unterminated .character, 1⟩
  | c :: t =>
    if c = '\'' then .refused ⟨.emptyCharacter, 1⟩
    else if c ∈ lineTerminators then .refused ⟨.unterminated .character, 1⟩
    else if c ∈ controlChars then .refused ⟨.rawControl c, 1⟩
    else if c = '\\' then
      match t with
      | [] => .refused ⟨.unterminated .character, 2⟩
      | e :: t => if e ∈ escapeLetters then close 3 t else .refused ⟨.invalidEscape e, 2⟩
    else close 2 t

/-- The end of a literal in lenient reading: a closing quote belongs to it. Right behind the opening
quote it leaves the literal empty, and where it is missing the literal is unterminated. -/
def lenientClose (depth : Nat) (flaw : Option Flaw) : Text → Scan
  | '\'' :: _ =>
    .token .character depth
      (flaw.or (if depth = 1 then some ⟨.emptyCharacter, 1⟩ else none))
  | _ => .token .character (depth - 1) (flaw.or (some ⟨.unterminated .character, depth⟩))

/-- The plain character of a literal in lenient reading. The last character of the text is never
taken for it. -/
def lenientBody (depth : Nat) (flaw : Option Flaw) : Text → Scan
  | c :: d :: t =>
    if c ∉ characterExcluded then lenientClose (depth + 1) flaw (d :: t)
    else lenientClose depth flaw (c :: d :: t)
  | t => lenientClose depth flaw t

/-- The flaw of a control that stands in a literal as it is. -/
def controlFlaw (c : Char) : Flaw :=
  if c ∈ lineTerminators then ⟨.unterminated .character, 1⟩ else ⟨.rawControl c, 1⟩

/-- A literal, in lenient reading. An opening quote with fewer than two characters behind it is a
token by itself. -/
def lenient : Text → Scan
  | c :: d :: t =>
    if c = '\\' then
      if d ∈ escapeLetters then lenientClose 3 none t
      else .token .character 1 (some ⟨.invalidEscape d, 2⟩)
    else if c ∈ controlChars then lenientBody 2 (some (controlFlaw c)) (d :: t)
    else lenientBody 1 none (c :: d :: t)
  | t => .token .character 0 (some ⟨.unterminated .character, 1 + t.length⟩)

def scan : Mode → Text → Scan
  | .strict => strict
  | .lenient => lenient

/-! ## A literal stays within the text -/

theorem close_fits (depth : Nat) (t : Text) : (close depth t).Fits (depth + t.length) := by
  unfold close
  split
  · simp [Scan.Fits]
  · simp [Scan.Fits]

theorem strict_fits (t : Text) : (strict t).Fits (t.length + 1) := by
  unfold strict
  split
  · simp [Scan.Fits]
  · rename_i c t
    have hc := close_fits 2 t
    split
    · simp [Scan.Fits]
    split
    · simp [Scan.Fits]
    split
    · simp [Scan.Fits]
    split
    · split
      · simp [Scan.Fits]
      · rename_i e t
        split
        · refine (close_fits 3 t).mono ?_
          simp only [List.length_cons]
          omega
        · simp [Scan.Fits]
    · refine hc.mono ?_
      simp only [List.length_cons]
      omega

theorem lenientClose_fits {depth : Nat} (pos : 0 < depth) (flaw : Option Flaw) (t : Text) :
    (lenientClose depth flaw t).Fits (depth + t.length) := by
  unfold lenientClose
  split
  · simp [Scan.Fits]
  · simp only [Scan.Fits]
    omega

theorem lenientBody_fits {depth : Nat} (pos : 0 < depth) (flaw : Option Flaw) (t : Text) :
    (lenientBody depth flaw t).Fits (depth + t.length) := by
  unfold lenientBody
  split
  · rename_i c d t
    split
    · refine (lenientClose_fits (Nat.succ_pos depth) flaw (d :: t)).mono ?_
      simp only [List.length_cons]
      omega
    · exact lenientClose_fits pos flaw (c :: d :: t)
  · exact lenientClose_fits pos flaw _

theorem lenient_fits (t : Text) : (lenient t).Fits (t.length + 1) := by
  unfold lenient
  split
  · rename_i c d t
    split
    · split
      · refine (lenientClose_fits (by decide : 0 < 3) none t).mono ?_
        simp only [List.length_cons]
        omega
      · simp [Scan.Fits]
    · split
      · refine (lenientBody_fits (by decide : 0 < 2) _ (d :: t)).mono ?_
        simp only [List.length_cons]
        omega
      · refine (lenientBody_fits (by decide : 0 < 1) none (c :: d :: t)).mono ?_
        simp only [List.length_cons]
        omega
  · simp [Scan.Fits]

theorem scan_fits (mode : Mode) (t : Text) : (scan mode t).Fits (t.length + 1) := by
  cases mode with
  | strict => exact strict_fits t
  | lenient => exact lenient_fits t

end Lexis.CharacterLiteral
