import ColumnFormula.Cell
import ColumnFormula.FormulaError
import ColumnFormula.Number.Display
import ColumnFormula.Text.CaseMap

/-!
# Aggregates of a column

Five aggregates reduce a column to one number. Four of them reduce the numbers of the
column and fail if it holds none; the count is of all cells with content and never fails.
Totals are added up from zero in the order of the cells, each sum rounded.
-/

namespace ColumnFormula

/-- A way to reduce a column to one number. -/
inductive Aggregate where
  | sum | avg | min | max | count
  deriving DecidableEq, Repr

namespace Aggregate

/-- The aggregates in the order of their names. -/
def all : List Aggregate := [.avg, .count, .max, .min, .sum]

def name : Aggregate → String
  | .sum => "SUM"
  | .avg => "AVG"
  | .min => "MIN"
  | .max => "MAX"
  | .count => "COUNT"

/-- The aggregate of exactly this name. -/
def ofExactName? (name : String) : Option Aggregate :=
  all.find? (·.name == name)

/-- What is said of a name under which no function is registered. -/
def unknownMessage (name : String) : String :=
  "Unknown aggregate function: " ++ Text.quoted name

/-- The aggregate of a name in either case, with blanks around it or not. -/
def ofName (name : String) : Except FormulaError Aggregate :=
  match ofExactName? (String.ofList (Text.upper (Text.strip name.toList))) with
  | some aggregate => .ok aggregate
  | none => .error (.unknownFunction name none)

/-- The numbers added up from zero, in order. -/
def total (xs : List Binary64) : Binary64 :=
  xs.foldl Binary64.add .zero

/-- The first of the least numbers. -/
def least (x : Binary64) (xs : List Binary64) : Binary64 :=
  xs.foldl (fun current x => if x.lt current then x else current) x

/-- The first of the greatest numbers. -/
def greatest (x : Binary64) (xs : List Binary64) : Binary64 :=
  xs.foldl (fun current x => if current.lt x then x else current) x

/-- An aggregate of the numbers of a column, given at least one; the count is left out. -/
def reduce (aggregate : Aggregate) (x : Binary64) (xs : List Binary64) : Binary64 :=
  match aggregate with
  | .avg => (total (x :: xs)).div (.ofNat (x :: xs).length)
  | .min => least x xs
  | .max => greatest x xs
  | .sum | .count => total (x :: xs)

def apply (aggregate : Aggregate) (cells : List RawText) : Except FormulaError Binary64 :=
  match aggregate, Cell.numbers cells with
  | .count, _ => .ok (.ofNat (Cell.contents cells).length)
  | aggregate, x :: xs => .ok (aggregate.reduce x xs)
  | aggregate, [] => .error (.noNumericValues aggregate.name)

/-- The functions on columns that are registered, each under the name of its aggregate. -/
def registry : List (String × (List RawText → Except FormulaError Binary64)) :=
  all.map fun aggregate => (aggregate.name, aggregate.apply)

/-- The function that is registered under a name, or what is said of a name that has none. -/
def registered (name : String) : Except String (List RawText → Except FormulaError Binary64) :=
  match registry.lookup name with
  | some function => .ok function
  | none => .error (unknownMessage name)

/-- Why a number has no whole-number text. -/
inductive DisplayError where
  | infinite
  | notANumber
  deriving DecidableEq, Repr

/-- Whether a whole number is so small that all its neighbours are whole numbers too. -/
def isSmall (units : Nat) : Bool :=
  units < Nat.pow 2 53 * Binary64.unitsPerOne

/-- A result as it appears in a cell. A count is shown as a whole number. Other results are,
if `integerResults` asks for it, when they are whole numbers below 2^53; all else is shown
as a binary64 number. -/
def display (aggregate : Aggregate) (integerResults : Bool) (x : Binary64) :
    Except DisplayError String :=
  match aggregate, x with
  | .count, .nan => .error .notANumber
  | .count, .infinite _ => .error .infinite
  | .count, .finite negative units _ => .ok (toString (Binary64.truncate negative units))
  | _, .finite negative units h =>
    if integerResults && (Binary64.finite negative units h).isInteger && isSmall units then
      .ok (toString (Binary64.truncate negative units))
    else .ok (Binary64.finite negative units h).toText
  | _, x => .ok x.toText

end Aggregate

end ColumnFormula
