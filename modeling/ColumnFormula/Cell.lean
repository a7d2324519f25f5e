import ColumnFormula.RawText
import ColumnFormula.Number.Decimal

/-!
# What a cell holds

A cell counts only if it has content: absent, undecodable and blank cells are passed over
everywhere. Content is a number if, trimmed, it is a decimal numeral whose nearest value is
in range; names of infinity and NaN, grouped digits and other number systems are ordinary
text.
-/

namespace ColumnFormula.Cell

/-- The trimmed content of a cell. -/
def content? (cell : RawText) : Option (List Char) :=
  match cell.chars? with
  | none => none
  | some s => if (Text.strip s).isEmpty then none else some (Text.strip s)

/-- The number that a text is, without regard to blanks around it. -/
def parseNumber? (s : List Char) : Option Binary64 :=
  match Decimal.ofChars? s with
  | none => none
  | some decimal =>
    let value := decimal.toBinary64
    if value.isFinite then some value else none

def number? (cell : RawText) : Option Binary64 :=
  (content? cell).bind parseNumber?

/-- The numbers of a column in order; every other cell is passed over. -/
def numbers (cells : List RawText) : List Binary64 :=
  cells.filterMap number?

def contents (cells : List RawText) : List (List Char) :=
  cells.filterMap content?

end ColumnFormula.Cell
