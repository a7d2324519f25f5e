import ColumnFormula.Aggregate
import ColumnFormula.Formula
import ColumnFormula.Handles

/-!
# Calls for hosts without exceptions

Each call returns a flat record: what was asked for, or a handle to the text of an error
which the host reads and releases. A call that succeeds leaves the handles as they are, and
one that fails gives out exactly one.
-/

namespace ColumnFormula.Boundary

/-- A formula split in two, or the handle of an error. -/
structure ParseAnswer where
  formula : Option Formula
  error : Option Nat
  deriving DecidableEq, Repr

/-- A value, or the handle of an error; the value is zero then. -/
structure AggregateAnswer where
  value : Binary64
  error : Option Nat
  deriving DecidableEq

def parse (table : HandleTable) (formula : RawText) : HandleTable × ParseAnswer :=
  match Formula.ofRaw formula with
  | .ok formula => (table, ⟨some formula, none⟩)
  | .error error =>
    let (table, handle) := table.alloc error.bareMessage
    (table, ⟨none, some handle⟩)

def fail (table : HandleTable) (message : String) : HandleTable × AggregateAnswer :=
  let (table, handle) := table.alloc message
  (table, ⟨.zero, some handle⟩)

/-- How an aggregate is chosen: by its name, or directly. -/
inductive AggregateChoice where
  | named (name : String)
  | fixed (aggregate : Aggregate)
  deriving DecidableEq, Repr

def AggregateChoice.resolve : AggregateChoice → Except FormulaError Aggregate
  | .named name => Aggregate.ofName name
  | .fixed aggregate => .ok aggregate

/-- The aggregate of the first `count` cells. The column name must be present and decodable,
but nothing else is done with it. -/
def aggregate (table : HandleTable) (choice : AggregateChoice) (column : RawText)
    (values : Option (List RawText)) (count : Int) : HandleTable × AggregateAnswer :=
  match column, values with
  | .absent, _ => fail table "Null pointer provided"
  | _, none => fail table "Null pointer provided"
  | column, some values =>
    if column.chars?.isNone then fail table "Invalid column name encoding"
    else
      match choice.resolve.bind (·.apply (values.take count.toNat)) with
      | .ok value => (table, ⟨value, none⟩)
      | .error error => fail table error.bareMessage

end ColumnFormula.Boundary
