import Lexis.Command.Invocation
import Lexis.Command.Outcome

/-!
# Help and usage errors

The pages of help, and what a command line that is refused is answered with. Each part of the line
has a page of its own: its usage, what it is for, and its options. An option without its value, and
one with a value that it does not take, are answered with the error alone; any other misuse shows
the usage of its part before the error, and a line with nothing on it is answered with the page.
-/

namespace Lexis.Command

def version : Text := "1.0.0".toList

namespace Page

/-- The words that lead to a part of the command line. -/
def command : Page → Text
  | tool => "plclex".toList
  | tokens => "plclex tokens".toList
  | matching => "plclex match".toList

def operands : Page → Text
  | tool => "COMMAND [ARGS]...".toList
  | tokens => "INPUT_FILE".toList
  | matching => "PATTERN TEXTS...".toList

def usage (page : Page) : Text :=
  "Usage: ".toList ++ page.command ++ " [OPTIONS] ".toList ++ page.operands ++ ['\n']

/-- What a part of the command line is for, line by line. -/
def description : Page → List String
  | tool =>
    ["Lexer for a small teaching language.",
     "",
     "Commands:",
     "  tokens    Lex a source file and print its tokens",
     "  match     Check strings against a validation pattern"]
  | tokens =>
    ["Lex a source file and print its tokens.",
     "",
     "INPUT_FILE is the source file to lex, or '-' for stdin.",
     "",
     "Examples:",
     "  plclex tokens program.plc",
     "  plclex tokens program.plc --lenient -o tokens.txt",
     "  plclex tokens - --format json < program.plc"]
  | matching =>
    ["Check strings against a validation pattern.",
     "",
     "PATTERN is one of the pattern names (case-insensitive). Each TEXT must",
     "match in full. Exits with status 1 if any TEXT does not match. A TEXT",
     "starting with '-', such as -0.25, is taken as text, not as an option.",
     "",
     "Examples:",
     "  plclex match email abc@gmail.com",
     "  plclex match character_list \"['a', 'b']\" \"['a',]\""]

/-- The options of a part of the command line, each with what it does. -/
def options : Page → List (String × String)
  | tool =>
    [("-v, --verbose", "Enable verbose output"),
     ("-V, --version", "Show the version and exit."),
     ("--help", "Show this message and exit.")]
  | tokens =>
    [("--strict / --lenient",
      "Raise on malformed literals, or accept them (default: strict, or PLCLEX_STRICT)"),
     ("--skip-newlines", "Skip newlines and carriage returns like spaces"),
     ("-f, --format [text|json]", "Output format (default: text)"),
     ("-o, --output FILE", "Output file (default: stdout)"),
     ("--help", "Show this message and exit.")]
  | matching => [("--help", "Show this message and exit.")]

def text (page : Page) : Text :=
  let indented (line : Text) := if line = [] then ['\n'] else "  ".toList ++ line ++ ['\n']
  page.usage ++ '\n' :: page.description.flatMap (fun line => indented line.toList) ++
    "\nOptions:\n".toList ++
    page.options.flatMap fun (names, effect) =>
      indented (names.toList ++ "  ".toList ++ effect.toList)

def outcome (page : Page) : Outcome := ⟨.success, page.text, [], none⟩

end Page

def UsageError.message : UsageError → Text
  | valueMissing option => "Option ".toList ++ Text.quoted option ++ " requires an argument.".toList
  | valueUnwanted option =>
    "Option ".toList ++ Text.quoted option ++ " does not take a value.".toList
  | unknownOption option => "No such option: ".toList ++ option
  | noArguments => []
  | missingCommand => "Missing command.".toList
  | unknownCommand name => "No such command ".toList ++ Text.quoted name ++ ".".toList
  | missingArgument name => "Missing argument ".toList ++ Text.quoted name ++ ".".toList
  | extraArguments words =>
    "Got unexpected extra arguments (".toList ++ [' '].intercalate words ++ ")".toList
  | invalidChoice value choices =>
    Text.quoted value ++ " is not one of ".toList ++ Text.joinCommas (choices.map Text.quoted) ++
      ".".toList
  | noSuchFile path => "File ".toList ++ Text.quoted path ++ " does not exist.".toList
  | isFolder path => "File ".toList ++ Text.quoted path ++ " is a directory.".toList

/-- The answer on the error channel. -/
def Misuse.text (m : Misuse) : Text :=
  let usage := m.page.usage ++ "Try '".toList ++ m.page.command ++ " --help' for help.\n\n".toList
  let error := echoed ("Error: ".toList ++ m.error.message)
  match m.error with
  | .noArguments => m.page.text
  | .valueMissing _ | .valueUnwanted _ => error
  | _ => usage ++ error

/-- What a command line that is refused leaves behind. -/
def Misuse.outcome (m : Misuse) : Outcome := ⟨.invalidArguments, [], m.text, none⟩

def versionOutcome : Outcome :=
  ⟨.success, echoed (Page.tool.command ++ ", version ".toList ++ version), [], none⟩

end Lexis.Command
