import ColumnFormula.Table
import ColumnFormula.Text.Utf8

/-!
# Records of separated values

A text of separated values is read as a table of text. A field that begins with a double quote
may hold separators and line breaks: it reaches to the first of them in front of which an even
number of its characters are quotes, and it must end with a quote. Any other field reaches to the
next separator or line end.

The first record names the columns. A record that is too short is filled up with empty
cells; of one that is too long everything behind the last column is passed over, up to the
line end that stands outside of quotes. Names that are repeated are numbered.

The records below the names are read in blocks of whole lines, where a line reaches to a line
end outside of all quotes. Quotes inside of a field that does not begin with one may let
lines and records fall apart; a block that has not as many records as lines is refused.

This is what is read where no other reader is asked for.
-/

namespace ColumnFormula.Csv

/-- Why a file is not read as a table. -/
inductive CsvError where
  | badEncoding
  /-- The separator is not one byte long. -/
  | badSeparator
  /-- The separator is no text. -/
  | separatorNotText
  /-- A field that begins with a quote does not end with another one, or a block has not as
  many records as lines. -/
  | malformed
  | duplicateName
  /-- Nothing stands behind the byte order mark. -/
  | noData
  deriving DecidableEq, Repr

/-- Where a scan stands in a record. -/
inductive Place where
  | fieldStart
  | bare
  /-- In a quoted field, behind a number of its quotes that is odd or not. -/
  | quoted (isOpen : Bool)
  /-- Behind the last field that is used, and there behind such a number of quotes. -/
  | surplus (isOpen : Bool)
  deriving DecidableEq, Repr

/-- The place behind a character that ends neither a field nor a record. -/
def Place.next (place : Place) (c : Char) : Place :=
  match place with
  | .fieldStart => if c = '"' then .quoted true else .bare
  | .bare => .bare
  | .quoted isOpen => .quoted (if c = '"' then !isOpen else isOpen)
  | .surplus isOpen => .surplus (if c = '"' then !isOpen else isOpen)

/-- Whether separators and line ends are ordinary characters in a place. -/
def Place.isOpen : Place → Bool
  | .quoted isOpen => isOpen
  | .surplus isOpen => isOpen
  | _ => false

/-- A record of the fields that were read; the current one counts unless it is surplus. -/
def endRecord (place : Place) (field : List Char) (record : List (List Char)) :
    List (List Char) :=
  match place with
  | .surplus _ => record.reverse
  | _ => (field.reverse :: record).reverse

/-- The records of a text, each of its first `width` fields or fewer, as they stand there.
The characters of the current field and the fields of the current record are held in
reverse order. -/
def scan (sep : Char) (width : Nat) : Place → List Char → List (List Char) → List Char →
    List (List (List Char))
  | place, field, record, [] =>
    -- No record begins at the end.
    if place = .fieldStart ∧ record.isEmpty then [] else [endRecord place field record]
  | place, field, record, c :: s =>
    -- A quote is told first, even if it is the separator.
    let next := place.next c
    if next.isOpen then scan sep width next (c :: field) record s
    else if c = '\n' then endRecord place field record :: scan sep width .fieldStart [] [] s
    else
      match next with
      | .surplus _ => scan sep width next [] record s
      | _ =>
        if c = sep then
          let record := field.reverse :: record
          scan sep width (if record.length = width then .surplus false else .fieldStart) []
            record s
        else scan sep width next (c :: field) record s

/-- Text in which two quotes stand for one, and a single quote for nothing. -/
def unescape : List Char → List Char
  | '"' :: '"' :: s => '"' :: unescape s
  | '"' :: s => unescape s
  | c :: s => c :: unescape s
  | [] => []

/-- What stands between the first and the last character of a field that begins with a
quote. -/
def inner? : List Char → Option (List Char)
  | '"' :: c :: s => some (c :: s).dropLast
  | _ => none

/-- The text of a field. -/
def fieldText (field : List Char) : Except CsvError (List Char) :=
  if field.head? ≠ some '"' then .ok field
  else
    match inner? field with
    | some inner => if field.getLast? = some '"' then .ok (unescape inner) else .error .malformed
    | none => .error .malformed

/-- A cell of a text, which is empty if the text is. -/
def textCell (s : List Char) : Option String :=
  if s.isEmpty then none else some (String.ofList s)

/-- The cells of a record, as far as it reaches. -/
def cellsOf (record : List (List Char)) : Except CsvError (List (Option String)) :=
  record.mapM fun field => (fieldText field).map textCell

/-- The name of a column whose name stands `repeats` times among the names before it. -/
def numberedName (name : String) (repeats : Nat) : String :=
  if repeats = 0 then name else name ++ "_duplicated_" ++ toString (repeats - 1)

/-- Names with a number at the end of those that repeat one of the names before them. -/
def numberNames (before : List String) : List String → List String
  | [] => []
  | name :: names => numberedName name (before.count name) :: numberNames (name :: before) names

/-- Characters without the last byte of their encoding. What is left of a longer character is
no character and shows as the replacement character. -/
def dropLastByte (s : List Char) : List Char :=
  match s.getLast? with
  | none => []
  | some c => s.dropLast ++ if c.toNat < 0x80 then [] else ['\uFFFD']

/-- The name that a field of the first record gives to a column. Quotes inside of it stay as
they are, and what ends a field that begins with a quote need not be one. -/
def nameOf (field : List Char) : String :=
  match field with
  | '"' :: c :: s => String.ofList (dropLastByte (c :: s))
  | _ => String.ofList field

/-- The columns of rows of cells, with the given names. -/
def columnsOf (names : List String) (rows : List (List (Option String))) : List Column :=
  names.mapIdx fun i name => ⟨name, rows.map fun row => row[i]?.join⟩

/-- The lines of a text, each with the line end outside of all quotes that ends it, and what
stands behind the last of them. -/
def quotedLines : Bool → List Char → List (List Char) × List Char
  | _, [] => ([], [])
  | isOpen, c :: s =>
    if c = '\n' ∧ ¬isOpen then
      let (lines, rest) := quotedLines false s
      (['\n'] :: lines, rest)
    else
      match quotedLines (if c = '"' then !isOpen else isOpen) s with
      | ([], rest) => ([], c :: rest)
      | (line :: lines, rest) => ((c :: line) :: lines, rest)

/-- How many bytes encode some characters. -/
def byteSize (s : List Char) : Nat :=
  s.foldl (fun size c => size + c.utf8Size) 0

/-- A block size, doubled until a line fits in. -/
def sizeFor (size bytes : Nat) : Nat :=
  if size = 0 ∨ bytes ≤ size then size else sizeFor (2 * size) bytes
termination_by bytes - size

/-- Lines in blocks, each of as many lines as fit into the block size, which grows with the
longest line so far. The lines of the current block are held in reverse order, and `room`
bytes are left in it. -/
def blocks (size room : Nat) (block : List (List Char)) :
    List (List Char) → List (List (List Char))
  | [] => [block.reverse]
  | line :: lines =>
    if byteSize line ≤ room then blocks size (room - byteSize line) (line :: block) lines
    else
      let size := sizeFor size (byteSize line)
      block.reverse :: blocks size (size - byteSize line) [line] lines

/-- The smallest block size. -/
def blockSize : Nat := 4096

/-- The blocks of the text below the names. What stands behind the last line end is a line in
a block of its own. -/
def bodyBlocks (s : List Char) : List (List (List Char)) :=
  let (lines, rest) := quotedLines false s
  blocks blockSize blockSize [] lines ++ if rest.isEmpty then [] else [[rest]]

/-- The rows of a block of lines. -/
def blockRows (sep : Char) (width : Nat) (lines : List (List Char)) :
    Except CsvError (List (List (Option String))) :=
  let records := scan sep width .fieldStart [] [] lines.flatten
  if records.length ≠ lines.length then .error .malformed else records.mapM cellsOf

/-- A text up to its first line end outside of quotes, and what stands behind that. -/
def cutLine : Bool → List Char → List Char × List Char
  | _, [] => ([], [])
  | isOpen, c :: s =>
    if c = '\n' ∧ ¬isOpen then ([], s)
    else
      let (line, rest) := cutLine (if c = '"' then !isOpen else isOpen) s
      (c :: line, rest)

/-- The table of a text that is not empty, with the given separator. -/
def tableOf (sep : Char) (s : List Char) : Except CsvError Table :=
  let (line, rest) := cutLine false s
  let names := numberNames [] (((scan sep 0 .fieldStart [] [] line).headD []).map nameOf)
  if ¬names.Nodup then .error .duplicateName
  else do
    let rows ← (bodyBlocks rest).mapM (blockRows sep names.length)
    .ok ⟨columnsOf names rows.flatten⟩

/-- The table of a text, which a byte order mark and line ends in front of it do not count for;
`separator` is nothing if what is asked for is no text. -/
def readRecords (separator : Option String) (s : List Char) : Except CsvError Table :=
  match separator.map String.toList with
  | none => .error .separatorNotText
  | some [sep] =>
    if 0x80 ≤ sep.toNat then .error .badSeparator
    else
      let text := (Text.Utf8.dropByteOrderMark s).dropWhile (· == '\n')
      if text.isEmpty then .error .noData else tableOf sep text
  | some _ => .error .badSeparator

end ColumnFormula.Csv
