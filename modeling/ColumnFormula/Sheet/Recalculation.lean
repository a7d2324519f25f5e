import ColumnFormula.Sheet.Calculation
import ColumnFormula.Text.Quoted

/-!
# Recalculating cells

A recalculation calculates some cells of a sheet in their order, and tells the listeners the
text of each before it goes on to the next. A listener that objects ends it. Recalculations
are numbered, and what they report carries the number. Reports are handed over as they come
about, to whatever receives them; nothing comes back from there.
-/

namespace ColumnFormula.Sheet

variable {σ : Type}

/-- Whether the argument of a formula names a column with this key. -/
def dependsOn (key : List Char) (formula : String) : Bool :=
  match Formula.parse formula with
  | .ok parsed => Text.foldCase parsed.argument.toList == key
  | .error _ => false

/-- The cells whose formulas depend on a column, in order. -/
def dependents (sheet : Sheet) (key : List Char) : List CellRef :=
  (sheet.store.entries.filter fun entry => dependsOn key entry.2).map (·.1)

/-- What became of a recalculation. Texts and notices are in the order in which they came
about, and `receiver` is what receives the reports, after the last of them. -/
structure Pass (σ : Type) where
  texts : List (CellRef × String)
  failed : Nat
  notices : List Notice
  interruption : Option Interruption
  receiver : σ

/-- Tell listeners a text, one after the other, up to the first that objects. -/
def notify (cell : CellRef) (text : String) : List Listener → List Notice × Bool
  | [] => ([], false)
  | listener :: listeners =>
    let notice := ⟨listener.name, cell, text⟩
    if listener.objectsTo cell then ([notice], true)
    else
      let (notices, objected) := notify cell text listeners
      (notice :: notices, objected)

/-- Recalculate cells one by one. -/
def passOver (receive : σ → Report → σ) (sheet : Sheet) (table : Table) (calcId : String) :
    List CellRef → σ → Pass σ
  | [], receiver => ⟨[], 0, [], none, receiver⟩
  | cell :: cells, receiver =>
    match sheet.calculate cell table (some calcId) with
    | .error interruption => ⟨[], 0, [], some interruption, receiver⟩
    | .ok (outcome, report) =>
      -- The report of a cell is handed over before the listeners are told of it.
      let receiver := receive receiver report
      let (notices, objected) := notify cell outcome.text sheet.listeners
      if objected then ⟨[], 0, notices, some .listener, receiver⟩
      else
        let rest := passOver receive sheet table calcId cells receiver
        { rest with
          texts := (cell, outcome.text) :: rest.texts
          failed := (if outcome.isOk then 0 else 1) + rest.failed
          notices := notices ++ rest.notices }

/-- The id of the recalculation of this number: the number in 32 hexadecimal digits. -/
def calcIdOf (number : Nat) : String :=
  String.ofList (Text.hexDigits 32 number)

/-- The report that begins a recalculation. -/
def startReport (calcId : String) (cells : Nat) : Report where
  level := .info
  kind := .recalcStarted
  message := "Recalculating " ++ toString cells ++ " formula cell(s)"
  context := [("calc_id", .str calcId), ("cells", .int cells)]
  encoded := []
  errorCode := none
  calcId := some calcId

/-- The report that ends a recalculation. -/
def endReport (calcId : String) (cells failed : Nat) : Report where
  level := .info
  kind := .recalcCompleted
  message := "Recalculated " ++ toString cells ++ " cell(s), " ++ toString failed ++ " failed"
  context := [("calc_id", .str calcId), ("cells", .int cells), ("failed", .int failed)]
  encoded := []
  errorCode := none
  calcId := some calcId

/-- Recalculate some cells under a new id. -/
def recalculate (receive : σ → Report → σ) (sheet : Sheet) (cells : List CellRef)
    (table : Table) (receiver : σ) : Sheet × Pass σ :=
  let number := sheet.recalculations + 1
  let calcId := calcIdOf number
  let receiver := receive receiver (startReport calcId cells.length)
  let pass := sheet.passOver receive table calcId cells receiver
  -- A recalculation that was interrupted has no report of its end.
  let receiver :=
    if pass.interruption.isNone then
      receive pass.receiver (endReport calcId pass.texts.length pass.failed)
    else pass.receiver
  ({ sheet with recalculations := number }, { pass with receiver })

def recalculateAll (receive : σ → Report → σ) (sheet : Sheet) (table : Table) (receiver : σ) :
    Sheet × Pass σ :=
  sheet.recalculate receive sheet.store.cells table receiver

/-- Recalculate the formulas whose argument names the column in the given place. There is
nothing to do, and no recalculation is counted, if the table has no such column. -/
def recalculateDependents (receive : σ → Report → σ) (sheet : Sheet) (place : Int)
    (table : Table) (receiver : σ) : Sheet × Pass σ :=
  match if place < 0 then none else table.columns[place.toNat]? with
  | none => (sheet, ⟨[], 0, [], none, receiver⟩)
  | some column =>
    sheet.recalculate receive (sheet.dependents (Table.nameKey column.name)) table receiver

end ColumnFormula.Sheet
