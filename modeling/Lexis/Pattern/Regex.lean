import Lexis.Text.Basic

/-!
# Regular expressions

Regular expressions over characters, and a matcher for whole texts. The matcher goes through the
text from left to right and keeps, at each point, an expression for what may still follow: the
derivative by the character just passed. Expressions that match nothing are dropped at once, so the
derivatives stay small.

Results:
1. `matchesEmpty_alternative`, `matchesEmpty_sequence`: dropping them changes no answer about the
   empty text.
-/

namespace Lexis

/-- A regular expression: it matches no text, the empty text, one character of a kind, what one of
two matches, a text of one followed by a text of another, or any number of texts one after the
other. -/
inductive Regex
  | nothing
  | empty
  | one (test : Char → Bool)
  | either (r s : Regex)
  | both (r s : Regex)
  | many (r : Regex)

namespace Regex

def matchesEmpty : Regex → Bool
  | nothing => false
  | empty => true
  | one _ => false
  | either r s => r.matchesEmpty || s.matchesEmpty
  | both r s => r.matchesEmpty && s.matchesEmpty
  | many _ => true

/-- `either`, without an alternative that matches nothing. -/
def alternative : Regex → Regex → Regex
  | nothing, s => s
  | r, nothing => r
  | r, s => either r s

/-- `both`, reduced if a part matches nothing or only the empty text. -/
def sequence : Regex → Regex → Regex
  | nothing, _ => nothing
  | _, nothing => nothing
  | empty, s => s
  | r, s => both r s

/-- What may follow the character in the texts that match. -/
def derivative (c : Char) : Regex → Regex
  | nothing => nothing
  | empty => nothing
  | one test => if test c then empty else nothing
  | either r s => alternative (r.derivative c) (s.derivative c)
  | both r s =>
    if r.matchesEmpty then alternative (sequence (r.derivative c) s) (s.derivative c)
    else sequence (r.derivative c) s
  | many r => sequence (r.derivative c) (many r)

def accepts (r : Regex) : Text → Bool
  | [] => r.matchesEmpty
  | c :: t => (r.derivative c).accepts t

def inOrder (rs : List Regex) : Regex := rs.foldr both empty

def literal (t : Text) : Regex := inOrder (t.map fun c => one (· = c))

/-- The expression or nothing at all. -/
def optional (r : Regex) : Regex := either r empty

def atLeastOnce (r : Regex) : Regex := both r (many r)

def times (n : Nat) (r : Regex) : Regex := inOrder (List.replicate n r)

/-- The expression at most `n` times. -/
def atMost (r : Regex) : Nat → Regex
  | 0 => empty
  | n + 1 => optional (both r (atMost r n))

@[simp] theorem matchesEmpty_alternative (r s : Regex) :
    (alternative r s).matchesEmpty = (r.matchesEmpty || s.matchesEmpty) := by
  unfold alternative
  split <;> simp [matchesEmpty]

@[simp] theorem matchesEmpty_sequence (r s : Regex) :
    (sequence r s).matchesEmpty = (r.matchesEmpty && s.matchesEmpty) := by
  unfold sequence
  split <;> simp [matchesEmpty]

end Regex

end Lexis
