import ColumnFormula.Json.Reader
import ColumnFormula.Log
import ColumnFormula.Text.Blank
import ColumnFormula.Text.Lines

/-!
# Reading a log

A log is read from its end, up to a number of bytes; a line that is cut by that bound is
dropped. Bytes that encode no text are read as replacement characters, and lines that hold
no JSON value are passed over, so that a damaged line never hides another one.
-/

namespace ColumnFormula

/-- Why a log cannot be read. -/
inductive LogError where
  | file (error : FileError)
  /-- A line holds an integer of more digits than are read. -/
  | hugeInteger
  /-- A line holds values that are nested too deeply to be read. -/
  | tooDeep
  /-- Reading would start farther on than files have positions. -/
  | noPosition
  /-- A filter is applied to a value that is no object. -/
  | notAnObject
  deriving DecidableEq, Repr

namespace Log

/-- Bytes behind the first line feed; all of them if there is none. -/
def afterFirstLine (bytes : List UInt8) : List UInt8 :=
  match bytes.dropWhile (· != 10) with
  | [] => bytes
  | _ :: rest => rest

/-- The end of a file that is read: all of a short file, and of a longer one the lines that
begin behind the first line feed among the last `tailBytes` bytes. -/
def tail (tailBytes : Int) (bytes : List UInt8) : List UInt8 :=
  if bytes.length ≤ tailBytes then bytes
  else afterFirstLine (bytes.drop (bytes.length - tailBytes.toNat))

/-- The texts of the lines that are not blank. -/
def lineTexts (bytes : List UInt8) : List (List Char) :=
  ((Text.splitLines (Text.Utf8.decodeLossy bytes)).map Text.strip).filter (!·.isEmpty)

/-- The values of lines of text, in order; in each of them at most `depth` arrays and objects may
stand in one another. -/
def valuesOf (depth : Nat) : List (List Char) → Except LogError (List Json)
  | [] => .ok []
  | text :: texts =>
    match Json.ofChars text depth with
    | .ok value => (valuesOf depth texts).map (value :: ·)
    | .error .malformed => valuesOf depth texts
    | .error .hugeInteger => .error .hugeInteger
    | .error .tooDeep => .error .tooDeep

/-- The last position that a file may have. -/
def maxPosition : Int := Int.ofNat (Nat.pow 2 63) - 1

/-- The values in some bytes of a log file. A number of bytes below zero starts behind the end
of the file, as long as there is such a position. -/
def values (depth : Nat) (tailBytes : Int) (bytes : List UInt8) : Except LogError (List Json) :=
  if maxPosition < bytes.length - tailBytes then .error .noPosition
  else valuesOf depth (lineTexts (tail tailBytes bytes))

/-- The values in a file of the log, the oldest first; none if there is no such file. -/
def readFile (log : Log) (path : Path) (tree : FileTree) : Except LogError (List Json) :=
  match tree.find path with
  | .error error => .error (.file error)
  | .ok none => .ok []
  | .ok (some .folder) => .error (.file .isFolder)
  | .ok (some (.file bytes)) => values log.limits.depth log.tailBytes bytes

/-- Whether a value has the text of a filter in a field. -/
def fieldIs (key text : String) (value : Json) : Bool :=
  match value.get? key with
  | some (.str s) => s == text
  | _ => false

/-- The values with the text of a filter in a field; all if the filter asks for nothing. -/
def applyFilter (key : String) (filter : Option String) (values : List Json) :
    Except LogError (List Json) :=
  match filter with
  | none => .ok values
  | some text =>
    if text.isEmpty then .ok values
    else if values.all Json.isObj then .ok (values.filter (fieldIs key text))
    else .error .notAnObject

/-- The most values that a query returns. -/
def maxLimit : Int := 2000

/-- The first values up to a limit. -/
def takeLimit (limit : Int) (values : List Json) : List Json :=
  let limit := min limit maxLimit
  if 0 ≤ limit then values.take limit.toNat
  -- A limit below zero leaves out that many at the end.
  else values.take (values.length - (-limit).toNat)

/-- The events of the global file that pass both filters, the newest first, up to a limit. -/
def readGlobal (log : Log) (level kind : Option String) (limit : Int) (tree : FileTree) :
    Except LogError (List Json) := do
  let values ← log.readFile (globalFile log.folder) tree
  let values ← applyFilter "level" level values
  let values ← applyFilter "event_type" kind values
  .ok (takeLimit limit values.reverse)

/-- The events of one recalculation, the oldest first; none if the id cannot name a file. -/
def readCalc (log : Log) (id : String) (tree : FileTree) : Except LogError (List Json) :=
  if isSafeId id then log.readFile (calcFile log.folder id) tree else .ok []

end Log

end ColumnFormula
