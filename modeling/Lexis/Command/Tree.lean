import Lexis.Command.Run

/-!
# File trees

A tree of folders and files held in memory, with one folder as the place where a command runs. A
command line can be run in a tree: what stands at a path and whether a file can be written there is
then decided by following the path segment by segment, and the file that the command writes changes
the tree.
-/

namespace Lexis.Command

/-- A place in a tree: the names that lead to it from the top. -/
abbrev Place := List Text

/-- A tree: its files, and the folder where a command runs. A folder exists if it leads to a file
or to the folder where the command runs. -/
structure Tree where
  home : Place
  files : List (Place × List UInt8)
deriving DecidableEq, Repr

namespace Tree

def noEntry : Obstacle := ⟨2, "No such file or directory".toList⟩
def notAFolder : Obstacle := ⟨20, "Not a directory".toList⟩
def isAFolder : Obstacle := ⟨21, "Is a directory".toList⟩
def nameTooLong : Obstacle := ⟨36, "File name too long".toList⟩

def nameLimit : Nat := 255

def pathLimit : Nat := 4095

/-- A tree whose only folder is the one where a command runs. The name of that folder is empty: no
path can spell it. -/
def empty : Tree := ⟨[[]], []⟩

def at? (t : Tree) (place : Place) : Entry :=
  match t.files.lookup place with
  | some content => .file content
  | none =>
    if place.isPrefixOf t.home || t.files.any fun file => place.isPrefixOf file.1 then .folder
    else .missing

/-- Follows segments from a place on. Each segment is looked up in a folder: an empty one and `.`
stay there, `..` leads up, and a name leads to what need not exist yet. -/
def follow (t : Tree) (place : Place) : List Text → Except Obstacle Place
  | [] => .ok place
  | segment :: rest =>
    match t.at? place with
    | .missing => .error noEntry
    | .file _ => .error notAFolder
    | .folder =>
      if !Path.moves segment then t.follow place rest
      else if segment = "..".toList then t.follow place.dropLast rest
      else if nameLimit < (Utf8.encode segment).length then .error nameTooLong
      else t.follow (place ++ [segment]) rest

def resolve (t : Tree) (path : Text) : Except Obstacle Place :=
  if path = [] then .error noEntry
  else if pathLimit < (Utf8.encode path).length then .error nameTooLong
  else t.follow (if path.head? = some '/' then [] else t.home) (Path.segments path)

def entry (t : Tree) (path : Text) : Entry :=
  match t.resolve path with
  | .ok place => t.at? place
  | .error _ => .missing

def writable (t : Tree) (path : Text) : Except Obstacle Place :=
  (t.resolve path).bind fun place =>
    if t.at? place = .folder then .error isAFolder else .ok place

/-- The tree with a file at a place. -/
def put (t : Tree) (place : Place) (content : List UInt8) : Tree :=
  { t with files := t.files.filter (·.1 ≠ place) ++ [(place, content)] }

/-- The tree with a file under a path below the folder where a command runs; its folders are
made. -/
def add (t : Tree) (path : Text) (content : List UInt8) : Tree :=
  t.put (t.home ++ (Path.segments path).filter Path.moves) content

/-- The world of a command that runs in the tree and may print whatever it likes. -/
def world (t : Tree) (environment : Environment) (input : List UInt8) : World where
  environment := environment
  input := input
  entry := t.entry
  obstacle? path :=
    match t.writable path with
    | .ok _ => none
    | .error o => some o
  rejection? _ := none

/-- The tree after a command that writes a file. -/
def after (t : Tree) (outcome : Outcome) : Tree :=
  match outcome.written with
  | none => t
  | some (path, content) =>
    match t.writable path with
    | .ok place => t.put place (Utf8.encode content)
    | .error _ => t

def run (t : Tree) (environment : Environment) (input : List UInt8) (words : List Text) :
    Outcome × Tree :=
  let outcome := Command.run (t.world environment input) words
  (outcome, t.after outcome)

/-- The files below the folder where a command runs that are not in an earlier tree, or have other
bytes there, each with its path from that folder. -/
def changes (earlier later : Tree) : List (Text × List UInt8) :=
  (later.files.filter fun file => !earlier.files.contains file &&
    later.home.isPrefixOf file.1).map fun file =>
      (['/'].intercalate (file.1.drop later.home.length), file.2)

end Tree

end Lexis.Command
