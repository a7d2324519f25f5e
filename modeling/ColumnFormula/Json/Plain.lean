import ColumnFormula.Json
import ColumnFormula.Number.Display
import ColumnFormula.Text.Quoted

/-!
# JSON values as plain text

Where a value stands in a line for people, a string is shown as it is and any other value by
its parts, with strings inside of it in quotes.
-/

namespace ColumnFormula.Json

/-- A text in quotes. -/
def quotedChars (s : String) : List Char :=
  (Text.quoted s).toList

def plainBool (b : Bool) : List Char :=
  (if b then "True" else "False").toList

mutual

/-- A value that is a part of another one. -/
def plainPart : Json → List Char
  | .null => "None".toList
  | .bool b => plainBool b
  | .int n => (toString n).toList
  | .float x => x.toChars
  | .str s => quotedChars s
  | .arr [] => ['[', ']']
  | .arr (item :: items) => '[' :: plainPart item ++ plainItems items
  | .obj [] => ['\x7b', '\x7d']
  | .obj ((key, value) :: fields) =>
    '\x7b' :: quotedChars key ++ ':' :: ' ' :: plainPart value ++ plainFields fields
termination_by structural value => value

/-- The items behind the first, and the closing bracket. -/
def plainItems : List Json → List Char
  | [] => [']']
  | item :: items => ',' :: ' ' :: plainPart item ++ plainItems items
termination_by structural items => items

/-- The fields behind the first, and the closing brace. -/
def plainFields : List (String × Json) → List Char
  | [] => ['\x7d']
  | (key, value) :: fields =>
    ',' :: ' ' :: quotedChars key ++ ':' :: ' ' :: plainPart value ++ plainFields fields
termination_by structural fields => fields

end

/-- A value in a line for people. -/
def toPlainText : Json → String
  | .str s => s
  | value => String.ofList (plainPart value)

end ColumnFormula.Json
