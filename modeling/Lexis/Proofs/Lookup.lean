import Lexis.Lexer

/-!
# The rules by lookup

The rules of `Lexis.Scan` take a text apart by its first characters, so they cannot look where there
is none. Here the same rules are followed with a cursor: each character is looked up by its place,
and a place outside the text brings the rule to a halt (`Halt.outside`). What keeps the lookups
within the text are tests for the end of the text, some of them made well before the lookup, or in
another rule.

That the tests are enough, and that both ways to follow the rules agree, is said in
`Lexis.Proofs.LookupSafety`.
-/

namespace Lexis.Lookup

open Alphabet

/-- Why a rule gives out no token: a character was looked up where the text has none, or the text is
refused, and the cursor keeps what has been read. -/
inductive Halt
  | outside
  | refused (fault : Fault) (after : Cursor)

abbrev Attempt := Except Halt

/-! ## Lookups -/

def there (c : Cursor) (n : Nat) : Bool := c.has n

def look (c : Cursor) (n : Nat) : Attempt Char :=
  match c.peek? n with
  | some x => .ok x
  | none => .error .outside

theorem there_iff {c : Cursor} {n : Nat} : there c n = true ↔ n < c.ahead.length := by
  simp [there, Cursor.has, Cursor.remaining]

theorem length_advance_lt {c : Cursor} {m : Nat} (more : there c m = true) (n : Nat) :
    (c.advance (n + 1)).ahead.length < c.ahead.length := by
  rw [there_iff] at more
  rw [Cursor.ahead_advance, List.length_drop]
  exact Nat.sub_lt (Nat.zero_lt_of_lt more) (Nat.succ_pos n)

/-- Whether the characters from the `n`th place on lie in the sets, one after the other. -/
def sees (c : Cursor) (n : Nat) : List Text → Attempt Bool
  | [] => return true
  | set :: sets =>
    if there c n then do
      let x ← look c n
      if x ∈ set then sees c (n + 1) sets else return false
    else return false

/-- Reads on as long as the next character lies in the set. -/
def readWhile (set : Text) (c : Cursor) : Attempt Cursor :=
  if _more : there c 0 then do
    let x ← look c 0
    if x ∈ set then readWhile set (c.advance 1) else return c
  else return c
termination_by c.ahead.length
decreasing_by exact length_advance_lt _more 0

/-- The pending lexeme is given out. -/
def give (kind : Kind) (accepted : Option Fault) (c : Cursor) : Step :=
  .token (c.token kind) accepted c.skip

/-- The text is refused at the cursor, with the literal that begins at `start`. -/
def refuse {α : Type} (cause : Cause) (start : Nat) (c : Cursor) : Attempt α :=
  throw (.refused ⟨cause, start, c.index⟩ c)

/-- The text is refused at its end, since the literal that begins at `start` is not closed. -/
def refuseAtEnd {α : Type} (literal : Literal) (start : Nat) (c : Cursor) : Attempt α :=
  throw (.refused ⟨.unterminated literal, start, c.source.length⟩ c)

/-! ## Identifiers, numbers and operators -/

def identifier (c : Cursor) : Attempt Step := do
  let d ← readWhile identChars (c.advance 1)
  return give .identifier none d

/-- Whether the character behind the point ahead keeps the point from the number. -/
def pointAlone (mode : Mode) (c : Cursor) : Attempt Bool :=
  if mode = .strict then do
    let x ← look c 1
    return x ∉ digits
  else return false

/-- The end of a number, behind its first run of digits. -/
def fraction (mode : Mode) (c : Cursor) : Attempt Step := do
  let point ← sees c 0 [['.']]
  if point && there c 1 then
    let alone ← pointAlone mode c
    if alone then return give .integer none c
    else
      let d ← readWhile digits (c.advance 1)
      return give .decimal none d
  else return give .integer none c

def number (mode : Mode) (c : Cursor) : Attempt Step := do
  let sign ← sees c 0 [['-']]
  let whole ← readWhile digits (if sign then c.advance 1 else c)
  fraction mode whole

def operator (c : Cursor) : Attempt Step := do
  let first ← look c 0
  match operatorPairs.lookup first with
  | some pair =>
    let paired ← sees (c.advance 1) 0 [[pair]]
    return give .operator none (if paired then c.advance 2 else c.advance 1)
  | none => return give .operator none (c.advance 1)

/-! ## Literals in strict reading -/

/-- Makes sure that an escape stands at the cursor, which is at a backslash. -/
def checkEscape (literal : Literal) (start : Nat) (c : Cursor) : Attempt Unit := do
  let d := c.advance 1
  if there d 0 then
    let letter ← sees d 0 [escapeLetters]
    if letter then return ()
    else
      let x ← look d 0
      refuse (.invalidEscape x) start d
  else refuseAtEnd literal start d

def close (start : Nat) (c : Cursor) : Attempt Step :=
  if there c 0 then do
    let quote ← sees c 0 [['\'']]
    if quote then return give .character none (c.advance 1)
    else refuse (.unterminated .character) start c
  else refuseAtEnd .character start c

/-- A character literal, read behind its opening quote. -/
def characterStrict (start : Nat) (c : Cursor) : Attempt Step :=
  if there c 0 then do
    let x ← look c 0
    if x = '\'' then refuse .emptyCharacter start c
    else if x ∈ lineTerminators then refuse (.unterminated .character) start c
    else if x ∈ controlChars then do
      let control ← look c 0
      refuse (.rawControl control) start c
    else if x = '\\' then do
      checkEscape .character start c
      close start (c.advance 2)
    else close start (c.advance 1)
  else refuseAtEnd .character start c

/-- A string literal, read behind its opening quote or any character of it. -/
def stringStrict (start : Nat) (c : Cursor) : Attempt Step :=
  if _more : there c 0 then do
    let x ← look c 0
    if x = '"' then return give .string none (c.advance 1)
    else if x ∈ lineTerminators then refuse (.unterminated .string) start c
    else if x = '\\' then do
      checkEscape .string start c
      stringStrict start (c.advance 2)
    else stringStrict start (c.advance 1)
  else refuseAtEnd .string start c
termination_by c.ahead.length
decreasing_by
  · exact length_advance_lt _more 1
  · exact length_advance_lt _more 0

/-! ## Literals in lenient reading -/

/-- The closing quote of a character literal whose body begins at the offset `body`. -/
def closeLenient (start body : Nat) (flaw : Option Fault) (c : Cursor) : Attempt Step := do
  let quote ← sees c 0 [['\'']]
  if quote then
    let empty := if c.index = body then some ⟨.emptyCharacter, start, c.index⟩ else none
    return give .character (flaw.or empty) (c.advance 1)
  else
    let offset := if there c 0 then c.index else c.source.length
    return give .character (flaw.or (some ⟨.unterminated .character, start, offset⟩)) c

def plainLenient (start body : Nat) (flaw : Option Fault) (c : Cursor) : Attempt Step :=
  if there c 1 then do
    let x ← look c 0
    closeLenient start body flaw (if x ∉ characterExcluded then c.advance 1 else c)
  else closeLenient start body flaw c

/-- A character literal that goes on with a backslash, read from there. -/
def escapedLenient (start : Nat) (c : Cursor) : Attempt Step := do
  let letter ← sees (c.advance 1) 0 [escapeLetters]
  if letter then
    let quote ← sees (c.advance 2) 0 [['\'']]
    if quote then return give .character none (c.advance 3)
    else
      let flaw := some ⟨.unterminated .character, start, (c.advance 2).index⟩
      return give .character flaw (c.advance 2)
  else
    let x ← look (c.advance 1) 0
    let flaw := some ⟨.invalidEscape x, start, (c.advance 1).index⟩
    let quote ← sees (c.advance 1) 0 [['\'']]
    return give .character flaw (if quote then c.advance 2 else c.advance 1)

def controlFlaw (start : Nat) (c : Cursor) : Attempt Fault := do
  let x ← look c 0
  if x ∈ lineTerminators then return ⟨.unterminated .character, start, c.index⟩
  else
    let control ← look c 0
    return ⟨.rawControl control, start, c.index⟩

/-- A character literal, read behind its opening quote. -/
def characterLenient (start : Nat) (c : Cursor) : Attempt Step :=
  if there c 1 then do
    let backslash ← sees c 0 [['\\']]
    if backslash then escapedLenient start c
    else
      let control ← sees c 0 [controlChars]
      if control then
        let flaw ← controlFlaw start c
        plainLenient start c.index (some flaw) (c.advance 1)
      else plainLenient start c.index none c
  else return give .character (some ⟨.unterminated .character, start, c.source.length⟩) c

/-- The flaw noted so far. Only if there is none, another one is looked for. -/
def firstFlaw (noted : Option Fault) (other : Attempt (Option Fault)) : Attempt (Option Fault) :=
  match noted with
  | some flaw => return some flaw
  | none => other

/-- The flaw of a backslash, the character before the cursor, that makes no escape. -/
def escapeFlaw (start : Nat) (c : Cursor) : Attempt (Option Fault) :=
  if there c 0 then do
    let x ← look c 0
    return some ⟨.invalidEscape x, start, c.index⟩
  else return some ⟨.unterminated .string, start, c.source.length⟩

def asIsFlaw (start : Nat) (c : Cursor) : Attempt (Option Fault) := do
  let x ← look c 0
  if x ∈ lineTerminators then return some ⟨.unterminated .string, start, c.index⟩
  else if x = '\\' then do
    let next ← look c 1
    if next ∉ escapeLetters then do
      let letter ← look c 1
      return some ⟨.invalidEscape letter, start, c.index + 1⟩
    else return none
  else return none

mutual

/-- A string literal, read behind its opening quote or any character of it. -/
def stringLenient (start : Nat) (flaw : Option Fault) (c : Cursor) : Attempt Step :=
  if _more : there c 0 then do
    let backslash ← sees c 0 [['\\']]
    if backslash then
      let letter ← sees (c.advance 1) 0 [escapeLetters]
      if letter then stringAsIs start flaw (c.advance 2)
      else
        let flaw ← firstFlaw flaw (escapeFlaw start (c.advance 1))
        return give .string flaw (c.advance 1)
    else stringAsIs start flaw c
  else
    return give .string (flaw.or (some ⟨.unterminated .string, start, c.source.length⟩)) c
termination_by (c.ahead.length, 1)
decreasing_by
  · exact .left _ _ (length_advance_lt _more 1)
  · exact .right _ Nat.one_pos

/-- The same where no escape is to be read: behind an escape, or if none begins at the cursor. -/
def stringAsIs (start : Nat) (flaw : Option Fault) (c : Cursor) : Attempt Step := do
  let quote ← sees c 0 [['"']]
  if quote then return give .string flaw (c.advance 1)
  else if _more : there c 1 then do
    let flaw ← firstFlaw flaw (asIsFlaw start c)
    stringLenient start flaw (c.advance 1)
  else
    return give .string (flaw.or (some ⟨.unterminated .string, start, c.source.length⟩)) c
termination_by (c.ahead.length, 0)
decreasing_by exact .left _ _ (length_advance_lt _more 0)

end

/-! ## The rule that applies -/

def character (mode : Mode) (c : Cursor) : Attempt Step :=
  match mode with
  | .strict => characterStrict c.index (c.advance 1)
  | .lenient => characterLenient c.index (c.advance 1)

def string (mode : Mode) (c : Cursor) : Attempt Step :=
  match mode with
  | .strict => stringStrict c.index (c.advance 1)
  | .lenient => stringLenient c.index none (c.advance 1)

def startsNumber (mode : Mode) (c : Cursor) : Attempt Bool := do
  let digit ← sees c 0 [digits]
  let negative ← sees c 0 [['-'], digits]
  let sign ← sees c 0 [['-']]
  return digit || negative || (mode = .lenient && sign)

def scan (mode : Mode) (c : Cursor) : Attempt Step := do
  let ident ← sees c 0 [identStart]
  if ident then identifier c
  else
    let numeric ← startsNumber mode c
    if numeric then
      let fraction ← sees c 0 [['0'], ['.']]
      let zero ← sees c 0 [['0']]
      if fraction then number mode c
      else if zero && there c 1 then return give .integer none (c.advance 1)
      else number mode c
    else
      let quote ← sees c 0 [['\'']]
      if quote && (mode = .strict || there c 1) then character mode c
      else
        let double ← sees c 0 [['"']]
        if double then string mode c
        else
          let x ← look c 0
          if (operatorPairs.lookup x).isSome || (x ∉ alphanumeric && x ≠ ' ') then operator c
          else
            let y ← look c 0
            refuse (.noToken y) c.index c

/-- Gives out the next token, behind the whitespace at the cursor. -/
def next (o : Options) (c : Cursor) : Attempt Step :=
  if _more : there c 0 then do
    let x ← look c 0
    if x ∈ o.whitespace then next o (c.advance 1).skip else scan o.mode c
  else return .finished c
termination_by c.ahead.length
decreasing_by exact length_advance_lt _more 0

end Lexis.Lookup
