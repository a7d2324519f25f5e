import ColumnFormula.Yaml

/-!
# Scalars without quotes

The form of a plain scalar decides its type. Truth values are written in small letters, with
a capital first letter, or in capital letters. Integers are decimal, octal behind a zero,
hexadecimal, binary, or in base sixty with colons. Underscores may stand among digits and do
not count.
-/

namespace ColumnFormula.Yaml

/-- A word in the three ways of writing it. -/
def spellings (word : String) : List String :=
  [word, String.ofList (word.toList.take 1 |>.map Char.toUpper) ++
    String.ofList (word.toList.drop 1), String.ofList (word.toList.map Char.toUpper)]

def trueWords : List String := ["yes", "true", "on"].flatMap spellings

def falseWords : List String := ["no", "false", "off"].flatMap spellings

def nullWords : List String := ["~", "null", "Null", "NULL", ""]

/-- Whether a row of characters has a first one in `p` and others in `q`. -/
def headTail (p q : Char → Bool) : List Char → Bool
  | [] => false
  | c :: s => p c && s.all q

/-- A digit, or an underscore among digits. -/
def isDigitOrMark (c : Char) : Bool := c.isDigit || c == '_'

/-- A digit of a number system with at most sixteen digits, in either case. -/
def digitOfBase? (base : Nat) (c : Char) : Option Nat :=
  let value :=
    if c.isDigit then c.toNat - 48
    else if 'a' ≤ c ∧ c ≤ 'f' then c.toNat - 87
    else if 'A' ≤ c ∧ c ≤ 'F' then c.toNat - 55
    else 16
  if value < base then some value else none

/-- Whether digits of a number system, with marks among them, make up a text. -/
def isNumeral (base : Nat) (s : List Char) : Bool :=
  !s.isEmpty && s.all fun c => (digitOfBase? base c).isSome || c == '_'

/-- The most digits of a decimal number that are read. -/
def maxDigits : Nat := 4300

/-- Whether a decimal number has too many digits to be read; marks do not count. -/
def isTooLong (s : List Char) : Bool :=
  maxDigits < (s.filter Char.isDigit).length

/-- The value of digits of a number system; marks do not count. -/
def numeralValue? (base : Nat) (s : List Char) : Option Nat :=
  let values := s.filterMap (digitOfBase? base)
  if values.isEmpty then none
  else some (values.foldl (fun value digit => value * base + digit) 0)

/-- Text split at colons. -/
def atColons : List Char → List (List Char)
  | [] => [[]]
  | c :: s =>
    if c = ':' then [] :: atColons s
    else
      match atColons s with
      | [] => [[c]]
      | part :: parts => (c :: part) :: parts

/-- Whether a text is a part of a number in base sixty: one digit, or two below sixty. -/
def isSixtieth : List Char → Bool
  | [a] => a.isDigit
  | [a, b] => '0' ≤ a && a ≤ '5' && b.isDigit
  | _ => false

/-- The value of parts in base sixty. -/
def sixtyValue (parts : List (List Char)) : Nat :=
  parts.foldl (fun value part => value * 60 + Decimal.digitsValue (part.filter Char.isDigit)) 0

/-- The magnitude of an integer, if a text without its sign has the form of one. -/
def magnitude? (s : List Char) : Option (Except YamlError Nat) :=
  let valueIn (base : Nat) (digits : List Char) : Except YamlError Nat :=
    match numeralValue? base digits with
    | some value => .ok value
    | none => .error .badValue
  match s with
  | '0' :: 'b' :: s => if isNumeral 2 s then some (valueIn 2 s) else none
  | '0' :: 'x' :: s => if isNumeral 16 s then some (valueIn 16 s) else none
  | ['0'] => some (.ok 0)
  | '0' :: s => if isNumeral 8 s then some (valueIn 8 ('0' :: s)) else none
  | s =>
    match atColons s with
    | [digits] =>
      if ¬headTail Char.isDigit isDigitOrMark digits then none
      else some (if isTooLong digits then .error .badValue else valueIn 10 digits)
    | first :: rest =>
      if ¬(headTail Char.isDigit isDigitOrMark first && rest.all isSixtieth) then none
      else some (if isTooLong first then .error .badValue else .ok (sixtyValue (first :: rest)))
    | [] => none

/-- The integer that a plain scalar is. -/
def int? (s : List Char) : Option (Except YamlError Scalar) :=
  let (negative, digits) := Decimal.takeSign s
  (magnitude? digits).map fun value =>
    value.map fun n => .int (if negative then -n else n)

/-- Whether an exponent is written with its sign, or not at all. -/
def isSignedExponent : List Char → Bool
  | [] => true
  | e :: sign :: digits =>
    (e == 'e' || e == 'E') && (sign == '-' || sign == '+') && !digits.isEmpty &&
      digits.all Char.isDigit
  | _ => false

/-- The text in front of the point, and the text behind it if there is one. -/
def atPoint (s : List Char) : List Char × Option (List Char) :=
  let (before, after) := s.span (· != '.')
  (before, after.tail?)

/-- The decimal number that a plain scalar is. A number without digits in front of the point
has no sign. -/
def decimal? (s : List Char) : Option Binary64 :=
  let (negative, unsigned) := Decimal.takeSign s
  match atPoint unsigned with
  | (_, none) => none
  | (whole, some rest) =>
    let (fraction, exponent) := rest.span isDigitOrMark
    if whole.isEmpty then
      if unsigned.length = s.length ∧ headTail Char.isDigit isDigitOrMark fraction ∧
          isSignedExponent exponent then
        (Decimal.ofChars? (s.filter (· != '_'))).map Decimal.toBinary64
      else none
    else if headTail Char.isDigit isDigitOrMark whole ∧ isSignedExponent exponent then
      (Decimal.ofChars? (s.filter (· != '_'))).map Decimal.toBinary64
    else
      match atColons whole with
      | first :: part :: parts =>
        if headTail Char.isDigit isDigitOrMark first ∧ (part :: parts).all isSixtieth ∧
            exponent.isEmpty then
          let digits := Nat.toDigits 10 (sixtyValue (first :: part :: parts))
          some (Decimal.ofParts negative digits (fraction.filter Char.isDigit) 0).toBinary64
        else none
      | _ => none

/-- The number that a plain scalar names. -/
def namedNumber? (s : String) : Option Binary64 :=
  if [".nan", ".NaN", ".NAN"].contains s then some .nan
  else if [".inf", ".Inf", ".INF", "+.inf", "+.Inf", "+.INF"].contains s then some (.infinite false)
  else if ["-.inf", "-.Inf", "-.INF"].contains s then some (.infinite true)
  else none

/-- How many days a month has. -/
def daysIn (year month : Nat) : Nat :=
  if month = 2 then
    if year % 4 = 0 ∧ (year % 100 ≠ 0 ∨ year % 400 = 0) then 29 else 28
  else if [4, 6, 9, 11].contains month then 30
  else 31

def dayExists (year month day : Nat) : Bool :=
  1 ≤ year && 1 ≤ month && month ≤ 12 && 1 ≤ day && day ≤ daysIn year month

/-- One or two digits in front, and what follows them. -/
def shortNumber? : List Char → Option (Nat × List Char)
  | a :: b :: s =>
    if a.isDigit then
      if b.isDigit then some (Decimal.digitsValue [a, b], s)
      else some (Decimal.digitsValue [a], b :: s)
    else none
  | [a] => if a.isDigit then some (Decimal.digitsValue [a], []) else none
  | [] => none

/-- What follows a given character. -/
def after? (c : Char) : List Char → Option (List Char)
  | d :: s => if c = d then some s else none
  | [] => none

/-- The minutes between a time zone and universal time, in either direction, if a text has the
form of such a distance; none if there is no text. -/
def zone? (s : List Char) : Option Nat :=
  match s.dropWhile fun c => c == ' ' || c == '\t' with
  | [] => if s.isEmpty then some 0 else none
  | ['Z'] => some 0
  | sign :: rest =>
    if sign ≠ '-' ∧ sign ≠ '+' then none
    else
      match shortNumber? rest with
      | some (hours, []) => some (60 * hours)
      | some (hours, [':', a, b]) =>
        if a.isDigit ∧ b.isDigit then some (60 * hours + Decimal.digitsValue [a, b]) else none
      | _ => none

/-- The time of day behind a date, with whether it exists; time zones are less than a day away
from universal time. -/
def time? (s : List Char) : Option Bool := do
  let s ← match s with
    | 'T' :: s => some s
    | 't' :: s => some s
    | c :: s =>
      if c = ' ' ∨ c = '\t' then some (s.dropWhile fun c => c == ' ' || c == '\t') else none
    | [] => none
  let (hour, s) ← shortNumber? s
  match ← after? ':' s with
  | a :: b :: ':' :: c :: d :: s =>
    if [a, b, c, d].all Char.isDigit then
      let s := match s with
        | '.' :: s => s.dropWhile Char.isDigit
        | s => s
      (zone? s).map fun minutes =>
        hour < 24 && Decimal.digitsValue [a, b] < 60 && Decimal.digitsValue [c, d] < 60 &&
          minutes < 24 * 60
    else none
  | _ => none

/-- The date that a plain scalar is. -/
def date? (s : List Char) : Option (Except YamlError Scalar) := do
  let (yearDigits, s') := (s.take 4, s.drop 4)
  if ¬(yearDigits.length = 4 ∧ yearDigits.all Char.isDigit) then none
  let year := Decimal.digitsValue yearDigits
  let monthText ← after? '-' s'
  let (month, s') ← shortNumber? monthText
  let dayText ← after? '-' s'
  let (day, rest) ← shortNumber? dayText
  let isValid := dayExists year month day
  if rest.isEmpty then
    if s.length = 10 then
      some (if isValid then .ok (.date (String.ofList s) false) else .error .badValue)
    else none
  else
    let timeExists ← time? rest
    some (if isValid && timeExists then .ok (.date (String.ofList s) true) else .error .badValue)

/-- The scalar that a text without quotes is. A sole equals sign and the sign for merging
have no value of their own. -/
def plainScalar (s : List Char) : Except YamlError Scalar :=
  let word := String.ofList s
  if trueWords.contains word then .ok (.bool true)
  else if falseWords.contains word then .ok (.bool false)
  else if nullWords.contains word then .ok .null
  else if word = "=" ∨ word = "<<" then .error .malformed
  else
    match namedNumber? word, decimal? s, int? s, date? s with
    | some x, _, _, _ => .ok (.float x)
    | none, some x, _, _ => .ok (.float x)
    | none, none, some n, _ => n
    | none, none, none, some d => d
    | none, none, none, none => .ok (.text word)

end ColumnFormula.Yaml
