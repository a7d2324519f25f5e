import ColumnFormula.Text.PrintableTable

/-!
# Quoted texts

Error messages show a name in quotes, with everything that cannot be printed escaped.
The quotes are single unless the text holds a single quote and no double quote.
-/

namespace ColumnFormula.Text

/-- Whether ascending ranges hold a code point. -/
def inRanges : List (Nat × Nat) → Nat → Bool
  | [], _ => false
  | (first, last) :: ranges, n =>
    if n < first then false else if n ≤ last then true else inRanges ranges n

/-- Whether a character is shown as it is. -/
def isPrintable (c : Char) : Bool :=
  !inRanges unprintableRanges c.toNat

/-- The last `width` hexadecimal digits of a number, in lower case. -/
def hexDigits : Nat → Nat → List Char
  | 0, _ => []
  | width + 1, n => hexDigits width (n / 16) ++ [Nat.digitChar (n % 16)]

/-- A code point in hexadecimal, behind `\x`, `\u` or `\U` by its size. -/
def escapeCode (n : Nat) : List Char :=
  if n ≤ 0xFF then '\\' :: 'x' :: hexDigits 2 n
  else if n ≤ 0xFFFF then '\\' :: 'u' :: hexDigits 4 n
  else '\\' :: 'U' :: hexDigits 8 n

/-- A character between the quotes `quote`. -/
def quoteChar (quote c : Char) : List Char :=
  if c = quote ∨ c = '\\' then ['\\', c]
  else if c = '\n' then ['\\', 'n']
  else if c = '\r' then ['\\', 'r']
  else if c = '\t' then ['\\', 't']
  else if isPrintable c then [c]
  else escapeCode c.toNat

/-- The quotes that a text gets. -/
def quoteFor (s : List Char) : Char :=
  if '\'' ∈ s ∧ '"' ∉ s then '"' else '\''

/-- A text in quotes. -/
def quoted (s : String) : String :=
  let quote := quoteFor s.toList
  String.ofList (quote :: s.toList.flatMap (quoteChar quote) ++ [quote])

/-- Texts in quotes, with commas between them and square brackets around them. -/
def quotedList (texts : List String) : String :=
  "[" ++ ", ".intercalate (texts.map quoted) ++ "]"

end ColumnFormula.Text
