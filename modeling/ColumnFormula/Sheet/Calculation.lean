import ColumnFormula.Aggregate
import ColumnFormula.Formula
import ColumnFormula.Sheet
import ColumnFormula.Table

/-!
# Calculating formulas

A formula is calculated against a table: it is parsed, its name is taken as an aggregate and
its argument as a column, and the first of these steps that fails gives the message that the
cell shows.
-/

namespace ColumnFormula

/-- What the calculation of a cell comes to. A calculation sets either the result or the
error message; of both, the message counts. -/
structure Outcome where
  result : Option String
  error : Option String
  deriving DecidableEq, Repr

namespace Outcome

def isOk (outcome : Outcome) : Bool :=
  outcome.error.isNone

/-- What a cell shows. -/
def text (outcome : Outcome) : String :=
  outcome.error.getD (outcome.result.getD "")

def ofResult (text : String) : Outcome := ⟨some text, none⟩

def ofError (message : String) : Outcome := ⟨none, some message⟩

end Outcome

namespace Sheet

/-- A formula carried through: its aggregate, its argument and the value. -/
structure Evaluation where
  aggregate : Aggregate
  argument : String
  value : Binary64
  deriving DecidableEq

/-- The value of a formula against a table, or the failure of the first step that fails. -/
def evaluate (formula : RawText) (table : Table) : Except FormulaError Evaluation := do
  let parsed ← Formula.ofRaw formula
  let aggregate ← Aggregate.ofName parsed.name
  let cells ← table.cells parsed.argument
  let value ← aggregate.apply cells
  .ok { aggregate, argument := parsed.argument, value }

/-- The field of a context that holds a formula, unless it is encoded. -/
def formulaContext : RawText → List (String × Json)
  | .absent => [("formula", .null)]
  | .text s => [("formula", .str s)]
  | .bytes _ => []

/-- The field of a context that holds an encoded formula. -/
def encodedContext : RawText → List (String × List UInt8)
  | .bytes b => [("formula", b)]
  | _ => []

/-- The report of a formula that fails. -/
def failureReport (context : List (String × Json)) (formula : RawText) (error : FormulaError)
    (calcId : Option String) : Report where
  level := .warning
  kind := .formulaFailed
  message := error.message
  context := context ++ formulaContext formula
  encoded := encodedContext formula
  errorCode := some error.code
  calcId := calcId

/-- The report of a formula that has a result. -/
def resultReport (context : List (String × Json)) (formula : RawText)
    (evaluation : Evaluation) (text : String) (calcId : Option String) : Report where
  level := .info
  kind := .formulaCalculated
  message := evaluation.aggregate.name ++ "(" ++ evaluation.argument ++ ") = " ++ text
  context := context ++ formulaContext formula ++ [("result", .str text)]
  encoded := encodedContext formula
  errorCode := none
  calcId := calcId

/-- The outcome of a formula, and its report. -/
def outcome (integerResults : Bool) (formula : RawText) (table : Table)
    (context : List (String × Json)) (calcId : Option String) :
    Except Interruption (Outcome × Report) :=
  match evaluate formula table with
  | .error error => .ok (.ofError error.message, failureReport context formula error calcId)
  | .ok evaluation =>
    match evaluation.aggregate.display integerResults evaluation.value with
    | .ok text => .ok (.ofResult text, resultReport context formula evaluation text calcId)
    | .error cause => .error (.display cause)

/-- What a cell without a formula shows when it is calculated. -/
def noFormulaMessage : String := "No formula found for cell"

/-- The report of a cell that is calculated without a formula. -/
def noFormulaReport (cell : CellRef) (calcId : Option String) : Report where
  level := .warning
  kind := .formulaFailed
  message := noFormulaMessage
  context := cellContext cell
  encoded := []
  errorCode := some "no_formula"
  calcId := calcId

def calculate (sheet : Sheet) (cell : CellRef) (table : Table) (calcId : Option String) :
    Except Interruption (Outcome × Report) :=
  match sheet.store.get? cell with
  | none => .ok (.ofError noFormulaMessage, noFormulaReport cell calcId)
  | some formula => outcome sheet.integerResults (.text formula) table (cellContext cell) calcId

/-- Calculate a formula that no cell holds. -/
def calculateFormula (sheet : Sheet) (formula : RawText) (table : Table) :
    Except Interruption (Outcome × Report) :=
  outcome sheet.integerResults formula table [] none

end Sheet

end ColumnFormula
