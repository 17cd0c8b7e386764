import Lexis.Alphabet
import Lexis.Fault
import Lexis.Text.Normal
import Lexis.Text.Quoted

/-!
# Options

How a text is to be read: the mode, and the characters skipped between tokens. The space is always
skipped, and no character that begins a token of its own kind ever is. The lexer relies on both, so
they are part of the type.

Two variables of the environment set the defaults: one says yes or no to strict reading, the other
lists the characters to be skipped, in which a line feed, a carriage return and a tab may be written
as a backslash and a letter.

Results:
1. `Options.make_eq_ok_iff`: the options that are made.
-/

namespace Lexis

open Alphabet

structure Options where
  mode : Mode
  /-- The characters skipped between tokens. -/
  whitespace : Text
  space_mem : ' ' ∈ whitespace
  starts_free : ∀ c ∈ whitespace, c ∉ tokenStarts

/-- Why settings are refused: the space is not skipped, some characters to be skipped begin tokens,
or a variable that says yes or no says neither. -/
inductive OptionError
  | spaceMissing
  | tokenStarts (clash : Text)
  | neitherYesNorNo (setting : Text) (accepted : List Text) (value : Text)
deriving DecidableEq, Repr

def OptionError.message : OptionError → Text
  | spaceMissing => "whitespace must include the space character".toList
  | tokenStarts clash =>
    "whitespace may not contain token start characters: ".toList ++ Text.quoted clash
  | neitherYesNorNo setting accepted value =>
    setting ++ " must be one of (".toList ++ Text.joinCommas (accepted.map Text.quoted) ++
      "), got ".toList ++ Text.quoted value

namespace Options

/-- The settings with the given characters skipped, if they may be. A missing space is complained
about first; the characters that may not be skipped are named in the order of their code points. -/
def make (mode : Mode) (whitespace : Text) : Except OptionError Options :=
  if space_mem : ' ' ∈ whitespace then
    if free : tokenStarts.filter (· ∈ whitespace) = [] then
      .ok ⟨mode, whitespace, space_mem, fun c hc hs =>
        List.filter_eq_nil_iff.1 free c hs (decide_eq_true hc)⟩
    else .error (.tokenStarts (tokenStarts.filter (· ∈ whitespace)))
  else .error .spaceMissing

/-- Settings are made of what was asked for, and whether they are does not depend on the mode. -/
theorem make_eq_ok_iff {mode : Mode} {whitespace : Text} {o : Options} :
    make mode whitespace = .ok o ↔ o.mode = mode ∧ o.whitespace = whitespace := by
  constructor
  · intro made
    unfold make at made
    split at made
    · split at made
      · cases made
        exact ⟨rfl, rfl⟩
      · cases made
    · cases made
  · rintro ⟨rfl, rfl⟩
    have free : tokenStarts.filter (· ∈ o.whitespace) = [] :=
      List.filter_eq_nil_iff.mpr fun c start white => o.starts_free c (of_decide_eq_true white) start
    rw [make, dif_pos o.space_mem, dif_pos free]

/-- Strict reading, with spaces and tabs skipped. -/
def standard : Options where
  mode := .strict
  whitespace := defaultWhitespace
  space_mem := by decide
  starts_free := fun _ => not_mem_tokenStarts_of_default

/-- The same settings with line ends skipped too. -/
def skippingLineEnds (o : Options) : Options where
  mode := o.mode
  whitespace := o.whitespace ++ lineTerminators.filter (· ∉ o.whitespace)
  space_mem := List.mem_append_left _ o.space_mem
  starts_free := by
    intro c hc
    rcases List.mem_append.1 hc with hc | hc
    · exact o.starts_free c hc
    · exact not_mem_tokenStarts_of_lineTerminator (List.mem_filter.1 hc).1

end Options

/-! ## Settings from the environment -/

/-- The variables of a process, each with its value. -/
abbrev Environment := List (Text × Text)

namespace Environment

def strictVariable : Text := "PLCLEX_STRICT".toList

def whitespaceVariable : Text := "PLCLEX_WHITESPACE".toList

def yesWords : List Text := ["1".toList, "true".toList, "yes".toList, "on".toList]

def noWords : List Text := ["0".toList, "false".toList, "no".toList, "off".toList]

/-- Reads a yes or a no, without regard to case and to blanks around it. -/
def readYesNo (setting value : Text) : Except OptionError Bool :=
  let word := Text.lower (Text.trimmed value)
  if word ∈ yesWords then .ok true
  else if word ∈ noWords then .ok false
  else .error (.neitherYesNorNo setting (yesWords ++ noWords) value)

/-- Each backslash that stands before `letter` becomes, together with it, the character
`meaning`. -/
def decodeEscape (letter meaning : Char) : Text → Text
  | [] => []
  | [c] => [c]
  | c :: d :: t =>
    if c = '\\' ∧ d = letter then meaning :: decodeEscape letter meaning t
    else c :: decodeEscape letter meaning (d :: t)

/-- The characters that a list with escapes stands for: line feeds are decoded first, then carriage
returns, then tabs. -/
def decodeWhitespace (value : Text) : Text :=
  decodeEscape 't' '\t' (decodeEscape 'r' '\r' (decodeEscape 'n' '\n' value))

/-- The options that the environment asks for. The variable for strict reading is read first. -/
def options (env : Environment) : Except OptionError Options := do
  let mode ←
    match env.lookup strictVariable with
    | none => pure Mode.strict
    | some value =>
      let strict ← readYesNo strictVariable value
      pure (if strict then Mode.strict else Mode.lenient)
  Options.make mode (((env.lookup whitespaceVariable).map decodeWhitespace).getD
    Alphabet.defaultWhitespace)

end Environment

end Lexis
