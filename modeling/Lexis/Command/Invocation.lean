import Lexis.Command.Grammar
import Lexis.Fault
import Lexis.Pattern.Basic

/-!
# Invocations

What a command line asks for. The line has options of the whole tool, then the name of a command,
then the options and operands of that command. A request for help or for the version is answered
before anything else, provided that the options of its part of the line can be told apart.
-/

namespace Lexis.Command

inductive Format
  | text
  | json
deriving DecidableEq, Repr

def Format.name : Format → Text
  | .text => "text".toList
  | .json => "json".toList

/-- The parts of a command line, each with a page of help. -/
inductive Page
  | tool
  | tokens
  | matching
deriving DecidableEq, Repr

/-- Why a command line is refused, and in which part of it. -/
structure Misuse where
  page : Page
  error : UsageError
deriving DecidableEq, Repr

structure TokensRequest where
  verbose : Bool
  /-- The paths of the file to be read and of the file to be written are held as they were given. -/
  input : Text
  mode : Option Mode
  skipLineEnds : Bool
  format : Format
  output : Option Text
deriving DecidableEq, Repr

structure MatchRequest where
  verbose : Bool
  pattern : Pattern
  texts : List Text
deriving DecidableEq, Repr

inductive Invocation
  | help (page : Page)
  | version
  | tokens (request : TokensRequest)
  | matching (request : MatchRequest)
deriving DecidableEq, Repr

namespace Invocation

inductive ToolOption
  | verbose
  | version
  | help
deriving DecidableEq, Repr

def toolGrammar : Grammar ToolOption where
  switches :=
    [⟨"-v".toList, .verbose, false⟩, ⟨"--verbose".toList, .verbose, false⟩,
     ⟨"-V".toList, .version, false⟩, ⟨"--version".toList, .version, false⟩,
     ⟨"--help".toList, .help, false⟩]
  mixed := false
  tolerant := false

inductive TokensOption
  | mode (mode : Mode)
  | skipNewlines
  | format
  | output
  | help
deriving DecidableEq, Repr

def tokensGrammar : Grammar TokensOption where
  switches :=
    [⟨"--strict".toList, .mode .strict, false⟩, ⟨"--lenient".toList, .mode .lenient, false⟩,
     ⟨"--skip-newlines".toList, .skipNewlines, false⟩,
     ⟨"-f".toList, .format, true⟩, ⟨"--format".toList, .format, true⟩,
     ⟨"-o".toList, .output, true⟩, ⟨"--output".toList, .output, true⟩,
     ⟨"--help".toList, .help, false⟩]
  mixed := true
  tolerant := false

/-- The command that compares texts has no option but the one for help, and takes every other word
that looks like an option as a text. -/
def matchingGrammar : Grammar Unit where
  switches := [⟨"--help".toList, (), false⟩]
  mixed := true
  tolerant := true

/-- The first request for help or for the version among the options of the tool. -/
def early? (settings : List (Setting ToolOption)) : Option Invocation :=
  settings.findSome? fun s =>
    match s.meaning with
    | .verbose => none
    | .version => some .version
    | .help => some (.help .tool)

/-- The last value among the settings for which `read` gives one. -/
def last? {α β : Type} (settings : List (Setting α)) (read : Setting α → Option β) : Option β :=
  settings.reverse.findSome? read

/-- The choice whose name the word spells, without regard to case. -/
def choose {β : Type} (choices : List β) (name : β → Text) (word : Text) :
    Except UsageError β :=
  match choices.find? fun choice => Text.folded (name choice) = Text.folded word with
  | some choice => .ok choice
  | none => .error (.invalidChoice word (choices.map name))

def readTokens (verbose : Bool) (words : List Text) : Except UsageError Invocation := do
  let d ← tokensGrammar.divide words
  if d.settings.any (·.meaning = .help) then
    return .help .tokens
  let format ←
    match last? d.settings fun s => if s.meaning = .format then some s.value else none with
    | some word => choose [Format.text, Format.json] Format.name word
    | none => pure .text
  match d.operands with
  | [] => throw (.missingArgument "INPUT_FILE".toList)
  | [input] =>
    return .tokens
      { verbose, input, format
        mode := last? d.settings fun s =>
          match s.meaning with
          | .mode mode => some mode
          | _ => none
        skipLineEnds := d.settings.any (·.meaning = .skipNewlines)
        output := last? d.settings fun s => if s.meaning = .output then some s.value else none }
  | _ :: extra => throw (.extraArguments extra)

def readMatching (verbose : Bool) (words : List Text) : Except UsageError Invocation := do
  let d ← matchingGrammar.divide words
  if !d.settings.isEmpty then
    return .help .matching
  match d.operands with
  | [] => throw (.missingArgument "PATTERN".toList)
  | word :: texts =>
    let pattern ← choose Pattern.all Pattern.name word
    if texts.isEmpty then
      throw (.missingArgument "TEXTS".toList)
    return .matching { verbose, pattern, texts }

/-- Reads a name that is no command together with the words behind it. If it looks like an option,
which it does only behind the word that ends the options, it is taken for one after all. -/
def readUnknown (name : Text) (words : List Text) : Except UsageError Invocation := do
  if name.head? = some '-' then
    let d ← toolGrammar.divide (name :: words)
    if let some early := early? d.settings then
      return early
  throw (.unknownCommand name)

def read (words : List Text) : Except Misuse Invocation := do
  if words.isEmpty then
    throw ⟨.tool, .noArguments⟩
  let d ← (toolGrammar.divide words).mapError (Misuse.mk .tool)
  if let some early := early? d.settings then
    return early
  let verbose := d.settings.any (·.meaning = .verbose)
  match d.operands with
  | [] => throw ⟨.tool, .missingCommand⟩
  | name :: words =>
    if name = "tokens".toList then (readTokens verbose words).mapError (Misuse.mk .tokens)
    else if name = "match".toList then (readMatching verbose words).mapError (Misuse.mk .matching)
    else (readUnknown name words).mapError (Misuse.mk .tool)

end Invocation

end Lexis.Command
