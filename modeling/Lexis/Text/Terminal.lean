import Lexis.Text.Basic

/-!
# Terminal control sequences

A control sequence is an escape character, an opening bracket, parameter characters from `0` to
`?`, intermediate characters from the space to `/`, and one final character from `@` to `~`. It
colours a terminal or moves its cursor, and it is noise anywhere else.

Results:
1. `withoutControls_eq_self`: a text without an escape character is left alone.
-/

namespace Lexis.Text

/-- The escape character, which opens every control sequence. -/
def escapeChar : Char := '\x1b'

def isParameter (c : Char) : Bool := '0' ≤ c && c ≤ '?'
def isIntermediate (c : Char) : Bool := ' ' ≤ c && c ≤ '/'
def isFinal (c : Char) : Bool := '@' ≤ c && c ≤ '~'

/-- What is left behind the control sequence whose escape character stands just before `t`;
nothing if no complete sequence stands there. -/
def afterControl? (t : Text) : Option Text :=
  match t with
  | '[' :: body =>
    match (body.dropWhile isParameter).dropWhile isIntermediate with
    | c :: rest => if isFinal c then some rest else none
    | [] => none
  | _ => none

theorem length_dropWhile_le (p : Char → Bool) (t : Text) : (t.dropWhile p).length ≤ t.length :=
  (List.dropWhile_suffix p).length_le

theorem length_afterControl? {t rest : Text} (h : afterControl? t = some rest) :
    rest.length < t.length := by
  unfold afterControl? at h
  split at h
  · rename_i body
    split at h
    · rename_i c r hb
      have h1 := length_dropWhile_le isParameter body
      have h2 := length_dropWhile_le isIntermediate (body.dropWhile isParameter)
      rw [hb] at h2
      split at h
      · cases h
        simp only [List.length_cons] at h2 ⊢
        omega
      · cases h
    · cases h
  · cases h

/-- The text without its complete control sequences. -/
def withoutControls : Text → Text
  | [] => []
  | c :: t =>
    if c = escapeChar then
      match _h : afterControl? t with
      | some rest => withoutControls rest
      | none => c :: withoutControls t
    else c :: withoutControls t
termination_by t => t.length
decreasing_by
  · have := length_afterControl? _h
    simp only [List.length_cons]
    omega
  · simp
  · simp

/-- A text without an escape character is left alone. -/
theorem withoutControls_eq_self {t : Text} (h : escapeChar ∉ t) : withoutControls t = t := by
  induction t with
  | nil => simp [withoutControls]
  | cons c t ih =>
    have hc : c ≠ escapeChar := fun e => h (e ▸ List.mem_cons_self)
    have ht : escapeChar ∉ t := fun m => h (List.mem_cons_of_mem _ m)
    rw [withoutControls, if_neg hc, ih ht]

end Lexis.Text
