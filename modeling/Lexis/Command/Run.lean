import Lexis.Command.Help
import Lexis.Command.World
import Lexis.Lexer
import Lexis.Listing

/-!
# Running the tool

The outcome of a command line, given what the command finds outside it.

One command reads a file or the standard input, lexes it, and prints the listing of its tokens or
writes it to a file. The checks come in a fixed order: the paths, the settings, the bytes of the
input, its tokens, the file to be written, and at last what is to be printed. The first that fails
decides the outcome, and then nothing is printed. A file that has been written by then stays.

The other command compares texts with a pattern. It prints one line for each text and fails unless
every text has the form of the pattern.
-/

namespace Lexis.Command

/-! ## Listing the tokens of a file -/

namespace TokensRequest

/-- The bytes to be read. The path must lead to a file, even one whose shortened form stands for the
standard input; that form itself needs no file. -/
def bytes (r : TokensRequest) (w : World) : Except UsageError (List UInt8) :=
  if r.input = standardInput then .ok w.input
  else
    match w.entry r.input with
    | .missing => .error (.noSuchFile r.input)
    | .folder => .error (.isFolder r.input)
    | .file content =>
      .ok (if Path.shortened r.input = standardInput then w.input else content)

/-- The path to be written, shortened. It must not lead to a folder. -/
def target (r : TokensRequest) (w : World) : Except UsageError (Option Text) :=
  match r.output with
  | none => .ok none
  | some path =>
    match w.entry path with
    | .folder => .error (.isFolder path)
    | _ => .ok (some (Path.shortened path))

def filename (r : TokensRequest) : Text :=
  if Path.shortened r.input = standardInput then "<stdin>".toList else Path.shortened r.input

/-- The settings: those of the environment, changed as the command line says. -/
def options (r : TokensRequest) (env : Environment) : Except OptionError Options :=
  env.options.map fun o =>
    let o := { o with mode := r.mode.getD o.mode }
    if r.skipLineEnds then o.skippingLineEnds else o

def listing (r : TokensRequest) (tokens : List Token) : Text :=
  match r.format with
  | .text => Listing.text tokens
  | .json => Listing.json tokens

/-- An entry of the journal as it is shown: warnings always, all else only to a verbose command,
which gets the weight as well. -/
def shown (r : TokensRequest) (entry : JournalEntry) : Text :=
  if r.verbose then entry.level.name ++ ": ".toList ++ entry.message ++ ['\n']
  else if entry.level = .warning then entry.message ++ ['\n']
  else []

def journal (r : TokensRequest) (options : Options) (source : Text) (run : Run) : Text :=
  let opening : JournalEntry :=
    ⟨.debug, "Lexing ".toList ++ r.filename ++ " (".toList ++ Text.ofNat source.length ++
      " characters, ".toList ++ options.mode.name ++ " mode)".toList⟩
  (opening :: run.journal source r.filename).flatMap r.shown

/-- The last line on the error channel of a verbose command. -/
def summary (r : TokensRequest) (run : Run) : Text :=
  if r.verbose then
    echoed (Text.ofNat run.tokens.length ++ " tokens, ".toList ++
      Text.ofNat run.accepted.length ++ " malformed literals accepted".toList)
  else []

/-- What is printed when the listing is written to a file. -/
def receipt (path : Text) (tokens : List Token) : Text :=
  "Wrote ".toList ++ Text.ofNat tokens.length ++ " tokens to ".toList ++ path

/-- What is left once all is done but the printing. -/
def print (r : TokensRequest) (w : World) (run : Run) (answer : Text)
    (written : Option (Text × Text)) : Outcome :=
  match w.rejection? (echoed answer) with
  | some rejection => { rejection.failure.outcome r.verbose with written }
  | none => ⟨.success, echoed answer, r.summary run, written⟩

def finish (r : TokensRequest) (w : World) (target : Option Text) (run : Run) : Outcome :=
  match target with
  | none => r.print w run (r.listing run.tokens) none
  | some path =>
    match w.obstacle? path with
    | some o => (Failure.system ⟨o.number, o.message, some path⟩).outcome r.verbose
    | none =>
      r.print w run (receipt path run.tokens) (some (path, r.listing run.tokens ++ ['\n']))

def lexing (r : TokensRequest) (w : World) (target : Option Text) (options : Options)
    (source : Text) : Outcome :=
  let run := lex options source
  let ending :=
    match run.refusal with
    | some fault => (Failure.malformed (fault.report source r.filename)).outcome r.verbose
    | none => r.finish w target run
  { ending with err := r.journal options source run ++ ending.err }

/-- What is left once the paths are known to be in order. -/
def process (r : TokensRequest) (w : World) (bytes : List UInt8) (target : Option Text) :
    Outcome :=
  match r.options w.environment with
  | .error e => (Failure.configuration e.message).outcome r.verbose
  | .ok options =>
    match Utf8.decode bytes with
    | .error refusal => (Failure.encoding refusal).outcome r.verbose
    | .ok t => r.lexing w target options (Text.unifyNewlines t)

def outcome (r : TokensRequest) (w : World) : Outcome :=
  match r.bytes w, r.target w with
  | .error e, _ => Misuse.outcome ⟨.tokens, e⟩
  | _, .error e => Misuse.outcome ⟨.tokens, e⟩
  | .ok bytes, .ok target => r.process w bytes target

end TokensRequest

/-! ## Comparing texts with a pattern -/

namespace MatchRequest

def verdict (r : MatchRequest) (t : Text) : Text :=
  (if r.pattern.accepts t then "match     ".toList else "no match  ".toList) ++ Text.quoted t

def matched (r : MatchRequest) : List Text :=
  r.texts.filter r.pattern.accepts

def summary (r : MatchRequest) : Text :=
  if r.verbose then
    echoed (Text.ofNat r.matched.length ++ '/' :: Text.ofNat r.texts.length ++
      " matched ".toList ++ r.pattern.name)
  else []

def outcome (r : MatchRequest) : Outcome where
  exitCode := if r.texts.all r.pattern.accepts then .success else .failure
  out := r.texts.flatMap fun t => echoed (r.verdict t)
  err := r.summary
  written := none

end MatchRequest

/-! ## The tool -/

def Invocation.outcome (w : World) : Invocation → Outcome
  | .help page => page.outcome
  | .version => versionOutcome
  | .tokens request => request.outcome w
  | .matching request => request.outcome

def run (w : World) (words : List Text) : Outcome :=
  match Invocation.read words with
  | .error e => e.outcome
  | .ok invocation => invocation.outcome w

end Lexis.Command
