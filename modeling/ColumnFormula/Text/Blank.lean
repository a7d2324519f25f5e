/-!
# Blank characters and trimming

Two sets of blank characters are in use. Formulas, names and cells are trimmed of
`isBlank`; cells of a loaded table are first trimmed of the Unicode property
`White_Space`, which lacks the four information separators U+001C to U+001F.
-/

namespace ColumnFormula.Text

/-- The Unicode property `White_Space`. -/
def isWhiteSpace (c : Char) : Bool :=
  let n := c.toNat
  (9 ≤ n && n ≤ 13) || n == 0x20 || n == 0x85 || n == 0xA0 || n == 0x1680 ||
    (0x2000 ≤ n && n ≤ 0x200A) || n == 0x2028 || n == 0x2029 || n == 0x202F ||
    n == 0x205F || n == 0x3000

/-- `White_Space` and the four information separators. -/
def isBlank (c : Char) : Bool :=
  isWhiteSpace c || (0x1C ≤ c.toNat && c.toNat ≤ 0x1F)

/-- `s` without the characters of `p` at its two ends. -/
def trimBy (p : Char → Bool) (s : List Char) : List Char :=
  ((s.dropWhile p).reverse.dropWhile p).reverse

/-- `s` without the blanks at its two ends. -/
def strip (s : List Char) : List Char :=
  trimBy isBlank s

/-- `s` without the `White_Space` at its two ends. -/
def stripWhiteSpace (s : List Char) : List Char :=
  trimBy isWhiteSpace s

@[simp] theorem trimBy_nil (p : Char → Bool) : trimBy p [] = [] := rfl

@[simp] theorem strip_nil : strip [] = [] := rfl

@[simp] theorem stripWhiteSpace_nil : stripWhiteSpace [] = [] := rfl

end ColumnFormula.Text
