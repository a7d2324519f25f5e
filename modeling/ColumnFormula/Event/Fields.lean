import ColumnFormula.Event
import ColumnFormula.Text.Blank
import ColumnFormula.Number.Decimal

/-!
# Events from fields

An event may be put together from named fields. A level and a kind are required, other
fields have defaults, unknown fields are ignored, and a field with a value of the wrong form
makes the whole invalid. Only the version is read with some tolerance: a truth value, a
binary64 number without fraction and a numeral count as integers.
-/

namespace ColumnFormula.Event

/-- What counts of a numeral that begins with a zero, behind that zero: zeros and underscores
lead it up to another digit or a minus, which begins what counts. -/
def afterLeadingZero (last : Char) : List Char → Option (List Char)
  | [] => some [last]
  | c :: s =>
    if c = '0' ∨ c = '_' then afterLeadingZero c s
    else if c.isDigit ∨ c = '-' then some (c :: s)
    -- The last of the leading characters counts in front of a point.
    else if c = '.' then some (last :: c :: s)
    else none

/-- A numeral without the zeros that lead it. -/
def dropLeadingZeros : List Char → Option (List Char)
  | [] => none
  | c :: s =>
    if c = '0' then afterLeadingZero c s
    else if c.isDigit ∨ c = '-' then some (c :: s)
    else none

/-- A numeral without a plus in front of it, which no other sign follows. -/
def dropPlus : List Char → Option (List Char)
  | '+' :: '-' :: _ => none
  | '+' :: s => some s
  | s => some s

/-- A numeral without a fraction of zeros, of which there is at least one. -/
def dropZeroFraction (s : List Char) : List Char :=
  match s.dropWhile (· != '.') with
  | _ :: '0' :: zeros => if zeros.all (· == '0') then s.takeWhile (· != '.') else s
  | _ => s

/-- Whether two underscores stand side by side. -/
def hasDoubleUnderscore : List Char → Bool
  | '_' :: '_' :: _ => true
  | _ :: s => hasDoubleUnderscore s
  | [] => false

/-- A numeral without its underscores, if each of them stands alone between two others. -/
def joinGroups (s : List Char) : List Char :=
  if s.head? = some '_' ∨ s.getLast? = some '_' ∨ hasDoubleUnderscore s then s
  else s.filter (· != '_')

/-- The integer of a minus, if any, and digits that no zero leads, of which there are at most
4300. -/
def integerOfDigits? (s : List Char) : Option Int :=
  let digits := match s with
    | '-' :: digits => digits
    | digits => digits
  if digits.isEmpty ∨ ¬digits.all Char.isDigit ∨ 4300 < digits.length then none
  else if digits.head? = some '0' ∧ 1 < digits.length then none
  else
    let value : Int := Decimal.digitsValue digits
    some (if s.head? = some '-' then -value else value)

/-- The integer of a numeral, which may have white space around it, a sign, leading zeros,
underscores between digits and a fraction of zeros. -/
def versionOfNumeral? (s : String) : Option Int := do
  let s ← dropPlus (Text.stripWhiteSpace s.toList)
  let s ← dropLeadingZeros s
  integerOfDigits? (joinGroups (dropZeroFraction s))

/-- The version that a value stands for. -/
def version? : Json → Option Int
  | .int n => some n
  | .bool b => some (if b then 1 else 0)
  | .float (.finite negative units h) =>
    let value := Binary64.truncate negative units
    if (Binary64.finite negative units h).isInteger ∧ value.natAbs < Nat.pow 2 63 then
      some value
    else none
  | .str s => versionOfNumeral? s
  | _ => none

def text? : Json → Option String
  | .str s => some s
  | _ => none

def optionalText? : Json → Option (Option String)
  | .null => some none
  | .str s => some (some s)
  | _ => none

def object? : Json → Option (List (String × Json))
  | .obj fields => some fields
  | _ => none

/-- A field read by `read`, or its default if it is missing. -/
def field? (fields : List (String × Json)) (key : String) (default : α)
    (read : Json → Option α) : Option α :=
  match fields.lookup key with
  | none => some default
  | some value => read value

def required? (fields : List (String × Json)) (key : String) (read : Json → Option α) :
    Option α :=
  (fields.lookup key).bind read

/-- The event of some fields; `now` is its stamp if they have none. -/
def ofFields? (now : String) (fields : List (String × Json)) : Option Event := do
  let schemaVersion ← field? fields "schema_version" 1 version?
  let stamp ← field? fields "ts" now text?
  let level ← required? fields "level" fun value => (text? value).bind EventLevel.ofName?
  let kind ← required? fields "event_type" fun value => (text? value).bind EventKind.ofName?
  let context ← field? fields "context" [] object?
  let message ← field? fields "message" "" text?
  let errorCode ← field? fields "error_code" none optionalText?
  some { schemaVersion, stamp, level, kind, context, message, errorCode }

end ColumnFormula.Event
