import Lexis.Text.Quoted

/-!
# Options on a command line

How the words of a command line are divided into options and operands. A long option is a word by
itself, with a value behind an equals sign or in the next word; short options may be written
together behind one hyphen, the last of them with its value behind it or in the next word. The
word `--` ends the options.

A grammar says which options there are, whether options may stand behind operands, and whether an
unknown option is an operand.
-/

namespace Lexis.Command

inductive UsageError
  /-- An option stands at the end of the line without its value. -/
  | valueMissing (option : Text)
  /-- A value is given to an option that takes none. -/
  | valueUnwanted (option : Text)
  | unknownOption (option : Text)
  | noArguments
  | missingCommand
  | unknownCommand (name : Text)
  | missingArgument (name : Text)
  | extraArguments (words : List Text)
  | invalidChoice (value : Text) (choices : List Text)
  | noSuchFile (path : Text)
  | isFolder (path : Text)
deriving DecidableEq, Repr

structure Switch (α : Type) where
  spelling : Text
  meaning : α
  takesValue : Bool

/-- A short spelling is a hyphen and one character. -/
def Switch.isShort {α : Type} (s : Switch α) : Bool := s.spelling.length = 2

/-- The options of a command. In a mixed line they may stand behind operands, and a tolerant command
takes an unknown option for an operand. -/
structure Grammar (α : Type) where
  switches : List (Switch α)
  mixed : Bool
  tolerant : Bool

/-- An option that is set, with the empty value if it takes none. -/
structure Setting (α : Type) where
  meaning : α
  value : Text

structure Division (α : Type) where
  settings : List (Setting α)
  operands : List Text

/-- What a single word says: the options set in it, the operand left of it, and the option that
waits for its value in the next word. -/
structure Word (α : Type) where
  settings : List (Setting α)
  operand : Option Text
  awaiting : Option (Switch α)

namespace Grammar

variable {α : Type}

def long? (g : Grammar α) (spelling : Text) : Option (Switch α) :=
  g.switches.find? fun s => !s.isShort && s.spelling = spelling

def short? (g : Grammar α) (letter : Char) : Option (Switch α) :=
  g.switches.find? fun s => s.isShort && s.spelling = ['-', letter]

/-- What a long option says, with the value given in the same word. -/
def readLong (s : Switch α) : Option Text → Except UsageError (Word α)
  | none =>
    if s.takesValue then .ok ⟨[], none, some s⟩ else .ok ⟨[⟨s.meaning, []⟩], none, none⟩
  | some value =>
    if s.takesValue then .ok ⟨[⟨s.meaning, value⟩], none, none⟩
    else .error (.valueUnwanted s.spelling)

/-- What short options written together say. `unknown` holds the letters that are not options. -/
def readShorts (g : Grammar α) (unknown : Text) : Text → Except UsageError (Word α)
  | [] => .ok ⟨[], if unknown = [] then none else some ('-' :: unknown), none⟩
  | c :: t =>
    match g.short? c with
    | none =>
      if g.tolerant then g.readShorts (unknown ++ [c]) t else .error (.unknownOption ['-', c])
    | some s =>
      let operand := if unknown = [] then none else some ('-' :: unknown)
      if s.takesValue then
        match t with
        | [] => .ok ⟨[], operand, some s⟩
        | value => .ok ⟨[⟨s.meaning, value⟩], operand, none⟩
      else (g.readShorts unknown t).map fun w =>
        { w with settings := ⟨s.meaning, []⟩ :: w.settings }

/-- What a word that begins with a hyphen says. It is taken for a long option if it spells one, and
for short options written together if it has a single hyphen. -/
def readWord (g : Grammar α) (word : Text) : Except UsageError (Word α) :=
  let name := word.takeWhile (· ≠ '=')
  match g.long? name with
  | some s => readLong s ((word.dropWhile (· ≠ '=')).tail?)
  | none =>
    if word.take 2 = ['-', '-'] then
      if g.tolerant then .ok ⟨[], some word, none⟩ else .error (.unknownOption name)
    else g.readShorts [] word.tail

/-- Whether a word may hold options. A single hyphen is an operand. -/
def holdsOptions : Text → Bool
  | '-' :: _ :: _ => true
  | _ => false

def divide (g : Grammar α) : List Text → Except UsageError (Division α)
  | [] => .ok ⟨[], []⟩
  | word :: words =>
    if word = ['-', '-'] then .ok ⟨[], words⟩
    else if holdsOptions word then
      (g.readWord word).bind fun w =>
        match w.awaiting with
        | none =>
          (g.divide words).map fun d =>
            ⟨w.settings ++ d.settings, w.operand.toList ++ d.operands⟩
        | some s =>
          match words with
          | [] => .error (.valueMissing s.spelling)
          | value :: words =>
            (g.divide words).map fun d =>
              ⟨w.settings ++ ⟨s.meaning, value⟩ :: d.settings, w.operand.toList ++ d.operands⟩
    else if g.mixed then
      (g.divide words).map fun d => { d with operands := word :: d.operands }
    else .ok ⟨[], word :: words⟩

end Grammar

end Lexis.Command
