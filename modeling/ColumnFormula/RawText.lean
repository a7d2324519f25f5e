import ColumnFormula.Text.Blank
import ColumnFormula.Text.Utf8

/-!
# Text as a host hands it over

Formulas, column names and cells come from hosts that may have nothing to hand over, or
only bytes. Bytes stand for the text that they encode; if they encode none, a formula or a
column name is refused, while a cell counts as absent.
-/

namespace ColumnFormula

/-- A text that may be absent, or still encoded. -/
inductive RawText where
  | absent
  | text (s : String)
  | bytes (b : List UInt8)
  deriving DecidableEq, Repr

namespace RawText

/-- The cell of a table: a text, or nothing. -/
def ofOption : Option String → RawText
  | none => .absent
  | some s => .text s

/-- The characters that a host meant, if it meant any that can be decoded. -/
def chars? : RawText → Option (List Char)
  | .absent => none
  | .text s => some s.toList
  | .bytes b => Text.Utf8.decode? b

end RawText

end ColumnFormula
