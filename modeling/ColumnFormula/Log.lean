import ColumnFormula.Event.Redaction
import ColumnFormula.Event
import ColumnFormula.FileTree
import ColumnFormula.Json.Printer
import ColumnFormula.Json.Reader

/-!
# The event log of a project

A project keeps its events in files of its folder `logs`. Every event is one line of
`events.ndjson`, and an event that belongs to a recalculation is also a line of the file
that its calculation id names. Lines are only ever appended, to the global file first.
-/

namespace ColumnFormula

/-- How far values may be nested where events are logged. -/
structure Limits where
  /-- How many values may stand around a part of a context that is written, the context itself
  included. -/
  height : Nat
  /-- How many arrays and objects may stand in one another in a line that is read. -/
  depth : Nat
  /-- How many calls may stand in one another while a context is redacted. -/
  calls : Nat
  /-- What is written can be read. -/
  height_lt : height + 1 < depth
  /-- Contexts without arrays and objects in them are redacted. -/
  two_le : 2 ≤ calls
  deriving DecidableEq, Repr

/-- The limits where nothing else is said. -/
def Limits.own : Limits where
  height := Event.maxHeight
  depth := Json.maxDepth
  calls := Redaction.maxCalls
  height_lt := by decide
  two_le := by decide

/-- The event log of the project in `folder`; reading starts at most `tailBytes` bytes from
the end of a file. -/
structure Log where
  folder : Path
  tailBytes : Int
  limits : Limits := .own
  deriving DecidableEq, Repr

/-- Why an event is not written, or not to all files. -/
inductive WriteError where
  | file (error : FileError)
  /-- The event has no line: its context is nested too deeply, or an integer in it has too many
  digits. Nothing is written. -/
  | tooDeep
  deriving DecidableEq, Repr

namespace Log

/-- How far from its end a file is read if nothing else is asked for: two mebibytes. -/
def defaultTailBytes : Int := 2097152

def logFolder (folder : Path) : Path := folder ++ ["logs"]

/-- The file of all events. -/
def globalFile (folder : Path) : Path := logFolder folder ++ ["events.ndjson"]

def calcFolder (folder : Path) : Path := logFolder folder ++ ["calcs"]

/-- The file of one recalculation. -/
def calcFile (folder : Path) (id : String) : Path := calcFolder folder ++ [id ++ ".ndjson"]

def isIdChar (c : Char) : Bool :=
  c.isAlphanum || c == '_' || c == '-'

/-- Whether a calculation id may name a file: it is made of id characters, at least one. -/
def isSafeId (id : String) : Bool :=
  let s := id.toList
  -- A line feed at the end does not count.
  let body := if s.getLast? = some '\n' then s.dropLast else s
  !body.isEmpty && body.all isIdChar

/-- A log for a project; its folders are made if they are missing. -/
def create (tree : FileTree) (folder : Path) (tailBytes : Option Int)
    (limits : Limits := .own) : Except FileError (FileTree × Log) := do
  let tree ← tree.makeFolders (logFolder folder)
  let tree ← tree.makeFolders (calcFolder folder)
  .ok (tree, { folder, tailBytes := tailBytes.getD defaultTailBytes, limits })

def line (event : Event) : List Char :=
  event.toJson.sortKeys.write ++ ['\n']

/-- The files that an event with this calculation id goes to, in the order of writing. -/
def targets (log : Log) (calcId : Option String) : List Path :=
  globalFile log.folder ::
    match calcId with
    | some id => if isSafeId id then [calcFile log.folder id] else []
    | none => []

/-- Append bytes to a file, making the folders that lead to it. -/
def appendTo (tree : FileTree) (path : Path) (bytes : List UInt8) :
    Except FileError FileTree := do
  let tree ← tree.makeFolders path.dropLast
  tree.append path bytes

/-- Append bytes to files, one after the other, up to the first that refuses. -/
def appendEach (bytes : List UInt8) : List Path → FileTree → FileTree × Option FileError
  | [], tree => (tree, none)
  | path :: paths, tree =>
    match appendTo tree path bytes with
    | .ok tree => appendEach bytes paths tree
    | .error error => (tree, some error)

/-- Write an event. If a file refuses, what was written before stays. -/
def write (log : Log) (event : Event) (calcId : Option String) (tree : FileTree) :
    FileTree × Option WriteError :=
  if event.isTooDeep log.limits.height || event.toJson.hasHugeInteger then (tree, some .tooDeep)
  else
    let (tree, refusal) := appendEach (Text.Utf8.encode (line event)) (log.targets calcId) tree
    (tree, refusal.map .file)

end Log

end ColumnFormula
