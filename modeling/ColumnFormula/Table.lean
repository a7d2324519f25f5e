import ColumnFormula.FormulaError
import ColumnFormula.RawText
import ColumnFormula.Text.CaseMap

/-!
# Tables

A table has named columns of text cells, any of which may be empty. A column that is handed
over without a name is named for its place. A column is found by its name without regard to
case and to blanks around it; of several that match, the first one.
-/

namespace ColumnFormula

/-- A named column of cells. -/
structure Column where
  name : String
  cells : List (Option String)
  deriving DecidableEq, Repr

/-- Columns in order. -/
structure Table where
  columns : List Column
  deriving DecidableEq, Repr

namespace Table

/-- The name of a column in some place that has none. -/
def placeName (place : Nat) : String :=
  "column_" ++ toString place

/-- A column in some place, with a name. -/
def withName (place : Nat) (column : Column) : Column :=
  if column.name.isEmpty then { column with name := placeName place } else column

/-- The table of some columns, unless two of them have the same name. -/
def ofColumns? (columns : List Column) : Option Table :=
  let columns := columns.mapIdx withName
  if (columns.map (·.name)).Nodup then some ⟨columns⟩ else none

def names (table : Table) : List String :=
  table.columns.map (·.name)

/-- Whether a table has no cell: no column, or no row. -/
def isEmpty (table : Table) : Bool :=
  table.columns.all (·.cells.isEmpty)

/-- A name for comparison without regard to case and to blanks around it. -/
def nameKey (name : String) : List Char :=
  Text.foldCase (Text.strip name.toList)

/-- The column that a name means. -/
def column (table : Table) (name : String) : Except FormulaError Column :=
  match table.columns.find? fun column => nameKey column.name == nameKey name with
  | some column => .ok column
  | none => .error (.columnNotFound name table.names)

/-- The cells of the column that a name means. -/
def cells (table : Table) (name : String) : Except FormulaError (List RawText) :=
  (table.column name).map fun column => column.cells.map RawText.ofOption

end Table

end ColumnFormula
