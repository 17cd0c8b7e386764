import Lexis.Command.Run

/-!
# The tool

The outer layer of the tool. It looks up what the command line needs, lets the library decide the
outcome, and carries the outcome out. If the file cannot be written or the answer cannot be printed
after all, the outcome is decided once more with that obstacle in the way.
-/

namespace Lexis

open Command

def readEnvironment : IO Environment := do
  let mut environment := []
  for name in [Environment.strictVariable, Environment.whitespaceVariable] do
    if let some value ← IO.getEnv (String.ofList name) then
      environment := environment ++ [(name, value.toList)]
  return environment

/-- The number with which the system refuses to read or write a folder. -/
def folderNumber : UInt32 := 21

/-- What stands at a path, found out by reading from it. A file that cannot be read counts as
missing. -/
def inspect (read : IO ByteArray) : IO Entry := do
  try
    return .file (← read).toList
  catch
    | .inappropriateType _ number _ => return if number = folderNumber then .folder else .missing
    | _ => return .missing

/-- The first byte of a file, which is enough to tell it from a folder. -/
def readByte (path : Text) : IO ByteArray := do
  let handle ← IO.FS.Handle.mk (String.ofList path) .read
  handle.read 1

def readWorld (words : List Text) : IO World := do
  let mut entries : List (Text × Entry) := []
  let mut input : ByteArray := .empty
  if let .ok (.tokens request) := Invocation.read words then
    if request.input ≠ standardInput then
      entries := [(request.input, ← inspect (IO.FS.readBinFile (String.ofList request.input)))]
    if Path.shortened request.input = standardInput then
      input ← (← IO.getStdin).readBinToEnd
    if let some path := request.output then
      entries := entries ++ [(path, ← inspect (readByte path))]
  return {
    environment := ← readEnvironment
    input := input.toList
    entry := fun path => (entries.lookup path).getD .missing
    obstacle? := fun _ => none
    rejection? := fun _ => none }

/-- The number given to a refusal that the system does not number. -/
def unknownNumber : Int := 5

def obstacleOf : IO.Error → Obstacle
  | .noFileOrDirectory _ number details | .permissionDenied _ number details
  | .inappropriateType _ number details | .invalidArgument _ number details
  | .resourceExhausted _ number details => ⟨number.toNat, details.toList⟩
  | .hardwareFault number details | .otherError number details
  | .resourceBusy number details => ⟨number.toNat, details.toList⟩
  | e => ⟨unknownNumber, (toString e).toList⟩

/-- Does something; answers with what stood in the way. -/
def hindrance? (action : IO Unit) : IO (Option Obstacle) := do
  try
    action
    return none
  catch e => return some (obstacleOf e)

def writeResult (outcome : Outcome) : IO Unit := do
  if let some (path, content) := outcome.written then
    IO.FS.writeFile (String.ofList path) (String.ofList content)

def printResult (outcome : Outcome) : IO Unit := do
  let out ← IO.getStdout
  out.putStr (String.ofList outcome.out)
  out.flush

end Lexis

open Lexis Command in
def main (args : List String) : IO UInt32 := do
  let words := args.map String.toList
  let mut world ← readWorld words
  if let some obstacle ← hindrance? (writeResult (run world words)) then
    world := { world with obstacle? := fun _ => some obstacle }
  if let some obstacle ← hindrance? (printResult (run world words)) then
    world := { world with rejection? := fun _ => some (.obstacle obstacle) }
  let outcome := run world words
  (← IO.getStderr).putStr (String.ofList outcome.err)
  return outcome.exitCode.number.toUInt32
