import ColumnFormula.Json

/-!
# Redaction

Before an event is logged its context loses what should not be kept. The value of a key that
names a credential is replaced whatever it is, and a long string is cut. Objects are searched
at every depth, and so are objects that are items of a list; a list that is an item of a
list is left alone. The search goes one call deeper for each object and two for an item of a
list, and there is room for so many calls only.
-/

namespace ColumnFormula.Redaction

/-- The words that make a key sensitive. -/
def sensitiveWords : List (List Char) :=
  ["password", "passwd", "secret", "token", "api_key", "apikey", "authorization", "cookie",
    "session"].map String.toList

/-- A character for comparison without regard to case. -/
def foldLetter (c : Char) : Char :=
  -- The long s, the kelvin sign, and the capital i with and the small i without a dot have a
  -- letter of ASCII as their other case.
  if c = '\u017F' then 's'
  else if c = '\u212A' then 'k'
  else if c = '\u0130' ∨ c = '\u0131' then 'i'
  else c.toLower

def occursIn (word : List Char) : List Char → Bool
  | [] => word.isEmpty
  | c :: s => word.isPrefixOf (c :: s) || occursIn word s

/-- Whether a key names a credential. -/
def isSensitive (key : String) : Bool :=
  sensitiveWords.any fun word => occursIn word (key.toList.map foldLetter)

/-- What stands in place of the value of a sensitive key. -/
def redactedMark : Json := .str "[REDACTED]"

/-- How many characters of a string are kept. -/
def keptLength : Nat := 256

/-- What follows the kept characters of a longer string. -/
def truncatedMark : String := "...[truncated]"

/-- A string, cut if it is long. -/
def truncate (s : String) : String :=
  if keptLength < s.toList.length then
    String.ofList (s.toList.take keptLength) ++ truncatedMark
  else s

mutual

/-- The value of a key that is not sensitive. -/
def redactValue : Json → Json
  | .obj fields => .obj (redact fields)
  | .arr items => .arr (redactItems items)
  | .str s => .str (truncate s)
  | value => value
termination_by structural value => value

def redactItems : List Json → List Json
  | [] => []
  | item :: items => redactItem item :: redactItems items
termination_by structural items => items

def redactItem : Json → Json
  | .obj fields => .obj (redact fields)
  | .str s => .str (truncate s)
  | item => item
termination_by structural item => item

/-- A context without what should not be kept. -/
def redact : List (String × Json) → List (String × Json)
  | [] => []
  | (key, value) :: fields =>
    (key, if isSensitive key then redactedMark else redactValue value) :: redact fields
termination_by structural fields => fields

end

mutual

/-- How many calls stand in one another at most while the value of a key is redacted that is not
sensitive. -/
def callsForValue : Json → Nat
  | .obj fields => calls fields
  | .arr items => callsForItems items + 1
  | _ => 1
termination_by structural value => value

/-- `callsForItem` of the item that takes the most, and none if there is no item. -/
def callsForItems : List Json → Nat
  | [] => 0
  | item :: items => max (callsForItem item) (callsForItems items)
termination_by structural items => items

/-- How many calls stand in one another at most while an item of a list is redacted. -/
def callsForItem : Json → Nat
  | .obj fields => calls fields + 1
  | _ => 1
termination_by structural item => item

/-- How many calls stand in one another at most while a context is redacted. -/
def calls : List (String × Json) → Nat
  | [] => 1
  | (key, value) :: fields =>
    max (if isSensitive key then 1 else callsForValue value + 1) (calls fields)
termination_by structural fields => fields

end

/-- How many calls there is room for if nothing else is said. -/
def maxCalls : Nat := 988

/-- A context without what should not be kept, if there is room for all calls. -/
def redact? (fields : List (String × Json)) (room : Nat := maxCalls) :
    Option (List (String × Json)) :=
  if calls fields ≤ room then some (redact fields) else none

end ColumnFormula.Redaction
