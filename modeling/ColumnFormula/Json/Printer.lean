import ColumnFormula.Json
import ColumnFormula.Number.Display
import ColumnFormula.Text.Quoted

/-!
# Writing JSON

A value is written on one line, with a blank behind each comma and colon, or on many, with
two blanks of indentation for each level. Both are plain ASCII: every other character is
written as the hexadecimal code of its one or two UTF-16 units. So no text that is written
holds a line break of any kind.
-/

namespace ColumnFormula.Json

/-- A UTF-16 unit in hexadecimal behind `\u`. -/
def escapeUnit (n : Nat) : List Char :=
  '\\' :: 'u' :: Text.hexDigits 4 n

/-- A character inside a string. -/
def escapeChar (c : Char) : List Char :=
  if c = '"' then ['\\', '"']
  else if c = '\\' then ['\\', '\\']
  else if c = '\n' then ['\\', 'n']
  else if c = '\r' then ['\\', 'r']
  else if c = '\t' then ['\\', 't']
  else if c = '\x08' then ['\\', 'b']
  else if c = '\x0c' then ['\\', 'f']
  else if 0x20 ≤ c.toNat ∧ c.toNat ≤ 0x7E then [c]
  else if c.toNat < 0x10000 then escapeUnit c.toNat
  else
    escapeUnit (0xD800 + (c.toNat - 0x10000) / 0x400) ++
      escapeUnit (0xDC00 + (c.toNat - 0x10000) % 0x400)

def writeString (s : String) : List Char :=
  '"' :: s.toList.flatMap escapeChar ++ ['"']

def writeInt (n : Int) : List Char :=
  (if n < 0 then ['-'] else []) ++ Nat.toDigits 10 n.natAbs

/-- A binary64 number; NaN and the infinities have names. -/
def writeFloat : Binary64 → List Char
  | .nan => ['N', 'a', 'N']
  | .infinite negative =>
    (if negative then ['-'] else []) ++ ['I', 'n', 'f', 'i', 'n', 'i', 't', 'y']
  | x => x.toChars

def writeBool (b : Bool) : List Char :=
  if b then ['t', 'r', 'u', 'e'] else ['f', 'a', 'l', 's', 'e']

mutual

/-- A value on one line. -/
def write : Json → List Char
  | .null => ['n', 'u', 'l', 'l']
  | .bool b => writeBool b
  | .int n => writeInt n
  | .float x => writeFloat x
  | .str s => writeString s
  | .arr [] => ['[', ']']
  | .arr (item :: items) => '[' :: write item ++ writeItems items
  | .obj [] => ['{', '}']
  | .obj ((key, value) :: fields) =>
    '{' :: writeString key ++ ':' :: ' ' :: write value ++ writeFields fields
termination_by structural value => value

/-- The items behind the first, and the closing bracket. -/
def writeItems : List Json → List Char
  | [] => [']']
  | item :: items => ',' :: ' ' :: write item ++ writeItems items
termination_by structural items => items

/-- The fields behind the first, and the closing brace. -/
def writeFields : List (String × Json) → List Char
  | [] => ['}']
  | (key, value) :: fields =>
    ',' :: ' ' :: writeString key ++ ':' :: ' ' :: write value ++ writeFields fields
termination_by structural fields => fields

end

/-- A new line at a level of indentation. -/
def newLine (level : Nat) : List Char :=
  '\n' :: List.replicate (2 * level) ' '

mutual

/-- A value on many lines, inside of `level` others. -/
def writeIndented (level : Nat) : Json → List Char
  | .arr [] => ['[', ']']
  | .arr (item :: items) =>
    '[' :: newLine (level + 1) ++ writeIndented (level + 1) item ++ indentedItems level items
  | .obj [] => ['{', '}']
  | .obj ((key, value) :: fields) =>
    '{' :: newLine (level + 1) ++ writeString key ++ ':' :: ' ' ::
      writeIndented (level + 1) value ++ indentedFields level fields
  | .null => ['n', 'u', 'l', 'l']
  | .bool b => writeBool b
  | .int n => writeInt n
  | .float x => writeFloat x
  | .str s => writeString s
termination_by structural value => value

/-- The items behind the first, and the closing bracket. -/
def indentedItems (level : Nat) : List Json → List Char
  | [] => newLine level ++ [']']
  | item :: items =>
    ',' :: newLine (level + 1) ++ writeIndented (level + 1) item ++ indentedItems level items
termination_by structural items => items

/-- The fields behind the first, and the closing brace. -/
def indentedFields (level : Nat) : List (String × Json) → List Char
  | [] => newLine level ++ ['}']
  | (key, value) :: fields =>
    ',' :: newLine (level + 1) ++ writeString key ++ ':' :: ' ' ::
      writeIndented (level + 1) value ++ indentedFields level fields
termination_by structural fields => fields

end

/-- A value on one line. -/
def toText (value : Json) : String :=
  String.ofList value.write

/-- A value on as many lines as it has parts. -/
def toIndentedText (value : Json) : String :=
  String.ofList (value.writeIndented 0)

end ColumnFormula.Json
