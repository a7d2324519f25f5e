import ColumnFormula.Number.Binary64

/-!
# JSON values

Events, their contexts and the lines of a log are JSON values. Whole numbers are kept apart
from binary64 numbers, and the fields of an object have an order, which matters only when an
object is written.
-/

namespace ColumnFormula

/-- A JSON value. -/
inductive Json where
  | null
  | bool (b : Bool)
  | int (n : Int)
  | float (x : Binary64)
  | str (s : String)
  | arr (items : List Json)
  | obj (fields : List (String × Json))

namespace Json

instance : Inhabited Json := ⟨.null⟩

/-- Fields with a value for a key: in place of the value it has, or at the end. -/
def setField (key : String) (value : Json) : List (String × Json) → List (String × Json)
  | [] => [(key, value)]
  | field :: fields =>
    if field.1 = key then (key, value) :: fields else field :: setField key value fields

/-- Fields of which, for each key, only the last value is kept, in the place of the first. -/
def distinct (fields : List (String × Json)) : List (String × Json) :=
  fields.foldl (fun kept field => setField field.1 field.2 kept) []

/-- The value of a field; nothing for a value that is no object. -/
def get? (key : String) : Json → Option Json
  | .obj fields => fields.lookup key
  | _ => none

def isObj : Json → Bool
  | .obj _ => true
  | _ => false

/-- Whether a value counts as true where a condition is asked for: null, zeros and empty
values do not. -/
def isTruthy : Json → Bool
  | .null => false
  | .bool b => b
  | .int n => n != 0
  | .float x => !x.isZero
  | .str s => !s.isEmpty
  | .arr items => !items.isEmpty
  | .obj fields => !fields.isEmpty

/-- Put a field in front of the first field with a greater or equal key. -/
def insertField (field : String × Json) : List (String × Json) → List (String × Json)
  | [] => [field]
  | other :: fields =>
    if other.1 < field.1 then other :: insertField field fields else field :: other :: fields

mutual

/-- How many values stand around an innermost part of a value at most, where a value without
parts stands around none. -/
def height : Json → Nat
  | .arr items => heightItems items
  | .obj fields => heightFields fields
  | _ => 0
termination_by structural value => value

/-- One more than the greatest `height` of an item; zero if there is none. -/
def heightItems : List Json → Nat
  | [] => 0
  | item :: items => max (height item + 1) (heightItems items)
termination_by structural items => items

/-- One more than the greatest `height` of the value of a field; zero if there is none. -/
def heightFields : List (String × Json) → Nat
  | [] => 0
  | (_, value) :: fields => max (height value + 1) (heightFields fields)
termination_by structural fields => fields

end

/-- How many digits an integer may have to be written or read. -/
def maxDigits : Nat := 4300

mutual

/-- Whether a value holds an integer of more digits than may be written. -/
def hasHugeInteger : Json → Bool
  | .int n => maxDigits < (Nat.toDigits 10 n.natAbs).length
  | .arr items => hasHugeItem items
  | .obj fields => hasHugeField fields
  | _ => false
termination_by structural value => value

/-- `hasHugeInteger` for some item. -/
def hasHugeItem : List Json → Bool
  | [] => false
  | item :: items => hasHugeInteger item || hasHugeItem items
termination_by structural items => items

/-- `hasHugeInteger` for the value of some field. -/
def hasHugeField : List (String × Json) → Bool
  | [] => false
  | (_, value) :: fields => hasHugeInteger value || hasHugeField fields
termination_by structural fields => fields

end

mutual

/-- The value with the fields of every object in the order of their keys. -/
def sortKeys : Json → Json
  | .arr items => .arr (sortKeysItems items)
  | .obj fields => .obj (sortKeysFields fields)
  | value => value
termination_by structural value => value

/-- `sortKeys` for each item. -/
def sortKeysItems : List Json → List Json
  | [] => []
  | item :: items => sortKeys item :: sortKeysItems items
termination_by structural items => items

/-- The fields in the order of their keys, with `sortKeys` for each value. -/
def sortKeysFields : List (String × Json) → List (String × Json)
  | [] => []
  | (key, value) :: fields => insertField (key, sortKeys value) (sortKeysFields fields)
termination_by structural fields => fields

end

end Json

end ColumnFormula
