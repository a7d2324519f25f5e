import ColumnFormula.Number.Decimal

/-!
# Settings as YAML values

A settings file holds scalars, lists and mappings. A scalar written without quotes is typed
by its form: truth values and null by name, integers in four number systems, binary64
numbers with a point, and dates; everything else is text. Keys of a mapping are scalars.
-/

namespace ColumnFormula

/-- Why a settings file is not read. -/
inductive YamlError where
  /-- The text is no YAML, or uses a part of it that settings do not need. -/
  | malformed
  /-- A scalar has the form of a number, date or character that does not exist. -/
  | badValue
  | tooDeep
  deriving DecidableEq, Repr

namespace Yaml

/-- A value without parts. -/
inductive Scalar where
  | null
  | bool (b : Bool)
  | int (n : Int)
  | float (x : Binary64)
  | text (s : String)
  /-- A day, or a moment if it has a time, as it is written. -/
  | date (written : String) (hasTime : Bool)
  deriving DecidableEq

/-- Whether a scalar counts as true where a condition is asked for. -/
def Scalar.isTruthy : Scalar → Bool
  | .null => false
  | .bool b => b
  | .int n => n != 0
  | .float x => !x.isZero
  | .text s => !s.isEmpty
  | .date .. => true

/-- The integer that a scalar counts as where keys are compared, or else the scalar itself:
truth values are zero and one, and binary64 numbers without fraction are integers. -/
def Scalar.number : Scalar → Scalar
  | .bool b => .int (if b then 1 else 0)
  | .float (.finite negative units h) =>
    if (Binary64.finite negative units h).isInteger then
      .int (Binary64.truncate negative units)
    else .float (.finite negative units h)
  | s => s

end Yaml

/-- A YAML value. -/
inductive Yaml where
  | scalar (s : Yaml.Scalar)
  | list (items : List Yaml)
  | mapping (fields : List (Yaml.Scalar × Yaml))

namespace Yaml

def null : Yaml := .scalar .null

def isTruthy : Yaml → Bool
  | .scalar s => s.isTruthy
  | .list items => !items.isEmpty
  | .mapping fields => !fields.isEmpty

/-- Fields with a value for a key: in place of the value that the key or one like it has, or
at the end. -/
def setField (key : Scalar) (value : Yaml) : List (Scalar × Yaml) → List (Scalar × Yaml)
  | [] => [(key, value)]
  | field :: fields =>
    if field.1.number = key.number then (field.1, value) :: fields
    else field :: setField key value fields

/-- Fields of which, for each key, only the last value is kept, in the place of the first. -/
def distinct (fields : List (Scalar × Yaml)) : List (Scalar × Yaml) :=
  fields.foldl (fun kept field => setField field.1 field.2 kept) []

/-- What kind of value a message says it got. -/
def kindName : Yaml → String
  | .scalar .null => "null"
  | .scalar (.bool _) => "bool"
  | .scalar (.int _) => "int"
  | .scalar (.float _) => "float"
  | .scalar (.text _) => "str"
  | .scalar (.date _ hasTime) => if hasTime then "datetime" else "date"
  | .list _ => "list"
  | .mapping _ => "mapping"

end Yaml

end ColumnFormula
