import ColumnFormula.Aggregate
import ColumnFormula.FormulaError
import ColumnFormula.Log.Reporter
import ColumnFormula.Sheet.Store
import ColumnFormula.Text.Blank

/-!
# Sheets

A sheet holds the formulas of its cells and the listeners to its recalculations. What a
sheet does is reported, but nothing that happens to a report comes back: operations return
their reports beside their answers.
-/

namespace ColumnFormula

/-- Someone who is told the text of each recalculated cell, and may object to it. -/
structure Listener where
  name : String
  objectsTo : CellRef → Bool

/-- What a listener was told. -/
structure Notice where
  listener : String
  cell : CellRef
  text : String
  deriving DecidableEq, Repr

/-- Why an operation stops before its end. -/
inductive Interruption where
  | listener
  /-- A count has no whole-number text. -/
  | display (cause : Aggregate.DisplayError)
  /-- A message would hold an integer of more digits than are written. -/
  | hugeInteger
  deriving DecidableEq, Repr

/-- Formulas and listeners. Recalculations are numbered from one, and `recalculations` is
the number of the last. -/
structure Sheet where
  integerResults : Bool
  store : FormulaStore
  listeners : List Listener
  recalculations : Nat

namespace Sheet

def start (integerResults : Bool) : Sheet where
  integerResults := integerResults
  store := .empty
  listeners := []
  recalculations := 0

/-! ## Formulas -/

/-- The fields that name a cell in a context. -/
def cellContext (cell : CellRef) : List (String × Json) :=
  [("row", .int cell.row), ("col", .int cell.col)]

/-- A cell in a message. -/
def cellText (cell : CellRef) : String :=
  "(" ++ toString cell.row ++ ", " ++ toString cell.col ++ ")"

/-- The report of a cell that gets a formula. -/
def setReport (cell : CellRef) (formula : String) : Report where
  level := .info
  kind := .formulaSet
  message := "Formula set at " ++ cellText cell
  context := cellContext cell ++ [("formula", .str formula)]
  encoded := []
  errorCode := none
  calcId := none

/-- The report of a cell that loses its formula. -/
def clearReport (cell : CellRef) : Report where
  level := .info
  kind := .formulaCleared
  message := "Formula cleared at " ++ cellText cell
  context := cellContext cell
  encoded := []
  errorCode := none
  calcId := none

/-- Whether a row or column has too many digits to stand in a message. -/
def isHuge (cell : CellRef) : Bool :=
  (Json.obj (cellContext cell)).hasHugeInteger

/-- The report of a change at a cell, unless the message has no text. -/
def announce (cell : CellRef) (report : Report) : Except Interruption (List Report) :=
  if isHuge cell then .error .hugeInteger else .ok [report]

/-- Take the formula of a cell away. Nothing is reported if it has none. The formula is gone also
if the report has no message. -/
def clear (sheet : Sheet) (cell : CellRef) : Sheet × Except Interruption (List Report) :=
  ({ sheet with store := sheet.store.erase cell },
    if sheet.store.contains cell then announce cell (clearReport cell) else .ok [])

/-- Give a cell a formula. A blank text takes away the formula that the cell has; any other
text must begin with an equals sign, blanks aside, or the cell stays as it is. The cell has its
formula also if the report has no message. -/
def set (sheet : Sheet) (cell : CellRef) (text : Option String) :
    Except SyntaxFault (Sheet × Except Interruption (List Report)) :=
  match Text.strip ((text.getD "").toList) with
  | [] => .ok (sheet.clear cell)
  | '=' :: rest =>
    let formula := String.ofList ('=' :: rest)
    .ok ({ sheet with store := sheet.store.insert cell formula },
      announce cell (setReport cell formula))
  | _ => .error .missingLeadingEquals

def clearAll (sheet : Sheet) : Sheet :=
  { sheet with store := .empty }

def subscribe (sheet : Sheet) (listener : Listener) : Sheet :=
  { sheet with listeners := sheet.listeners ++ [listener] }

end Sheet

end ColumnFormula
