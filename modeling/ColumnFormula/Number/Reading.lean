import ColumnFormula.Number.Decimal
import ColumnFormula.Text.Blank
import ColumnFormula.Text.DigitTable

/-!
# Numbers as people write them

Settings and command-line options are read more generously than cells: white space around a
number is dropped, digits of any script count, an underscore may stand between two digits,
and a binary64 number may also be infinity or NaN by name.
-/

namespace ColumnFormula

/-- Digits of any script as ASCII digits; other characters stay. -/
def asciiDigit (c : Char) : Char :=
  match Text.digitValue? c with
  | some value => Nat.digitChar value
  | none => c

/-- Text without the underscores that group its digits; none if an underscore stands
elsewhere. -/
def ungroup : List Char → Option (List Char)
  | [] => some []
  | ['_'] => none
  | c :: '_' :: d :: s =>
    if c.isDigit ∧ d.isDigit then (ungroup (d :: s)).map (c :: ·) else none
  | c :: s => if c = '_' then none else (ungroup s).map (c :: ·)

/-- A number's text in plain ASCII: trimmed, with digits of one script and without grouping. -/
def plainNumeral? (s : List Char) : Option (List Char) :=
  ungroup ((Text.stripWhiteSpace s).map asciiDigit)

/-- The integer that a text denotes, in at most 4300 digits. -/
def readInteger? (s : String) : Option Int := do
  let (negative, digits) := Decimal.takeSign (← plainNumeral? s.toList)
  if digits.isEmpty ∨ ¬digits.all Char.isDigit ∨ 4300 < digits.length then none
  else
    let value := Decimal.digitsValue digits
    some (if negative then -value else value)

/-- The binary64 number that a text denotes. -/
def readNumber? (s : String) : Option Binary64 := do
  let text ← plainNumeral? s.toList
  let (negative, word) := Decimal.takeSign text
  let word := String.ofList (word.map Char.toLower)
  if word = "inf" ∨ word = "infinity" then some (.infinite negative)
  else if word = "nan" then some .nan
  else (Decimal.ofChars? text).map Decimal.toBinary64

end ColumnFormula
