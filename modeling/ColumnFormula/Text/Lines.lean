/-!
# Lines of a text

A line ends at any of the ten line breaks below; a carriage return and the line feed
after it are one break. A break at the very end of a text opens no further line.
-/

namespace ColumnFormula.Text

/-- Line feed, vertical tab, form feed, carriage return, the file, group and record
separators, next line, line separator and paragraph separator. -/
def isLineBreak (c : Char) : Bool :=
  let n := c.toNat
  (10 ≤ n && n ≤ 13) || (0x1C ≤ n && n ≤ 0x1E) || n == 0x85 || n == 0x2028 || n == 0x2029

/-- Put a character in front of the first of some lines. -/
def consLine (c : Char) : List (List Char) → List (List Char)
  | [] => [[c]]
  | line :: lines => (c :: line) :: lines

/-- The lines of a text, without their breaks. -/
def splitLines : List Char → List (List Char)
  | [] => []
  | '\r' :: '\n' :: rest => [] :: splitLines rest
  | c :: rest =>
    if isLineBreak c then [] :: splitLines rest else consLine c (splitLines rest)

/-- Every carriage return, with the line feed that may follow it, becomes a line feed. -/
def unifyNewlines : List Char → List Char
  | [] => []
  | '\r' :: '\n' :: rest => '\n' :: unifyNewlines rest
  | '\r' :: rest => '\n' :: unifyNewlines rest
  | c :: rest => c :: unifyNewlines rest

/-- The pieces of a text between the occurrences of a character; always at least one. -/
def splitAtEach (sep : Char) : List Char → List (List Char)
  | [] => [[]]
  | c :: rest =>
    if c = sep then [] :: splitAtEach sep rest else consLine c (splitAtEach sep rest)

end ColumnFormula.Text
