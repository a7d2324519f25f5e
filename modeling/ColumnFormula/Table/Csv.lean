import ColumnFormula.Table.Records
import ColumnFormula.Text.Lines

/-!
# Tables from files

A file of separated values is loaded as a table of text. Its lines are taken apart first, and
blank ones are dropped, whatever they stand in. What is left goes to a reader of separated
values. Of the cells that it gives, what is kept has no white space at its ends, and a cell of
which nothing is left is empty.
-/

namespace ColumnFormula

namespace Csv

/-- How the separator is chosen. -/
inductive Separator where
  /-- By counting candidates in the first line. -/
  | detect
  | text (s : String)
  | notText
  deriving DecidableEq, Repr

/-- A reader of separated values: it makes a table of a text, with a separator that is given
unless it is no text. -/
abbrev Reader := Option String → List Char → Except CsvError Table

/-- The semicolon if it stands in a line more often than the comma, and else the comma. -/
def detectSeparator (line : List Char) : Char :=
  if line.count ',' < line.count ';' then ';' else ','

/-- The separator that a reader is asked for below a first line. -/
def Separator.chosen (line : List Char) : Separator → Option String
  | .detect => some (String.singleton (detectSeparator line))
  | .text s => some (if s.isEmpty then String.singleton (detectSeparator line) else s)
  | .notText => none

/-- A cell of a text: trimmed of white space, and empty if nothing is left. -/
def cellOf (s : List Char) : Option String :=
  if (Text.stripWhiteSpace s).isEmpty then none
  else some (String.ofList (Text.stripWhiteSpace s))

/-- What is kept of a cell. -/
def kept (cell : Option String) : Option String :=
  cell.bind fun s => cellOf s.toList

end Csv

/-- The column with what is kept of its cells. -/
def Column.trimmed (column : Column) : Column :=
  { column with cells := column.cells.map Csv.kept }

/-- The table with what is kept of its cells. -/
def Table.trimmed (table : Table) : Table :=
  ⟨table.columns.map Column.trimmed⟩

namespace Csv

/-- The lines of a text that are not blank. -/
def usedLines (s : List Char) : List (List Char) :=
  (Text.splitLines (Text.unifyNewlines s)).filter fun line => !(Text.strip line).isEmpty

/-- The table that a reader makes of the used lines of a text, trimmed. -/
def ofChars (read : Reader) (separator : Separator) (s : List Char) : Except CsvError Table :=
  match usedLines s with
  | [] => .ok ⟨[]⟩
  | line :: lines =>
    (read (separator.chosen line) (['\n'].intercalate (line :: lines))).map Table.trimmed

/-- The table of a file. -/
def load (separator : Separator) (bytes : List UInt8) (read : Reader := readRecords) :
    Except CsvError Table :=
  match Text.Utf8.decode? bytes with
  | none => .error .badEncoding
  | some s => ofChars read separator (Text.Utf8.dropByteOrderMark s)

end Csv

end ColumnFormula
