import Lexis.Alphabet
import Lexis.Command.Grammar
import Lexis.Command.Help
import Lexis.Command.Invocation
import Lexis.Command.Outcome
import Lexis.Command.Run
import Lexis.Command.Tree
import Lexis.Command.World
import Lexis.Cursor
import Lexis.Fault
import Lexis.Lexer
import Lexis.Listing
import Lexis.Main
import Lexis.Options
import Lexis.Pattern.Basic
import Lexis.Pattern.Regex
import Lexis.Proofs.Addresses
import Lexis.Proofs.Agreement
import Lexis.Proofs.Blame
import Lexis.Proofs.Boundary
import Lexis.Proofs.Caret
import Lexis.Proofs.CharacterLists
import Lexis.Proofs.CommandLine
import Lexis.Proofs.Controls
import Lexis.Proofs.CorrectPrefix
import Lexis.Proofs.Displacement
import Lexis.Proofs.EchoedReport
import Lexis.Proofs.Grammar
import Lexis.Proofs.Layout
import Lexis.Proofs.LenientGrammar
import Lexis.Proofs.LexemePatterns
import Lexis.Proofs.Listings
import Lexis.Proofs.LiteralAgreement
import Lexis.Proofs.Lookahead
import Lexis.Proofs.Lookup
import Lexis.Proofs.LookupSafety
import Lexis.Proofs.Malformed
import Lexis.Proofs.MaximalMunch
import Lexis.Proofs.ModeEquivalence
import Lexis.Proofs.Offsets
import Lexis.Proofs.Outcome
import Lexis.Proofs.Partition
import Lexis.Proofs.Piecewise
import Lexis.Proofs.Progress
import Lexis.Proofs.Quoting
import Lexis.Proofs.Reading
import Lexis.Proofs.Refusal
import Lexis.Proofs.RegexLanguage
import Lexis.Proofs.Session
import Lexis.Proofs.Skipping
import Lexis.Proofs.Spacing
import Lexis.Proofs.Stream
import Lexis.Proofs.Tiling
import Lexis.Proofs.TokensCommand
import Lexis.Proofs.Unquoting
import Lexis.Proofs.Utf8
import Lexis.Proofs.Verdict
import Lexis.Proofs.WhitespaceSetting
import Lexis.Proofs.WrittenListing
import Lexis.Report
import Lexis.Run
import Lexis.Scan.Basic
import Lexis.Scan.CharacterLiteral
import Lexis.Scan.Rule
import Lexis.Scan.StringLiteral
import Lexis.Text.Basic
import Lexis.Text.Normal
import Lexis.Text.Quoted
import Lexis.Text.Terminal
import Lexis.Text.Utf8
import Lexis.Token
