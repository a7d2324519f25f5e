import ColumnFormula.Json
import ColumnFormula.Number.Decimal

/-!
# Reading JSON

The reader accepts standard JSON and the names of NaN and the infinities. A key that an
object repeats has its last value, in its first place. A number with a fraction or an
exponent is a binary64 number, any other an integer; an integer of more than `maxDigits`
digits is refused as such, whatever follows it, and so is an array or object that stands in
too many others. Every reader returns what stands behind the part it has read.

Strings hold characters, and half of a pair of units is none. Such a half is written only as an
escape of its own; it is read as the replacement character, and two texts that differ in such
halves alone have the same value.
-/

namespace ColumnFormula.Json

/-- Why a text is not read as JSON. -/
inductive ReadError where
  | malformed
  | hugeInteger
  | tooDeep
  deriving DecidableEq, Repr

/-- Blanks between the parts of a value. -/
def isSpace (c : Char) : Bool :=
  c == ' ' || c == '\t' || c == '\n' || c == '\r'

def skipSpace (s : List Char) : List Char :=
  s.dropWhile isSpace

def hexValue? (c : Char) : Option Nat :=
  if '0' ≤ c ∧ c ≤ '9' then some (c.toNat - 48)
  else if 'a' ≤ c ∧ c ≤ 'f' then some (c.toNat - 87)
  else if 'A' ≤ c ∧ c ≤ 'F' then some (c.toNat - 55)
  else none

/-- The UTF-16 unit of four hexadecimal digits. -/
def unit? (a b c d : Char) : Option Nat := do
  let high := (← hexValue? a) * 16 + (← hexValue? b)
  let low := (← hexValue? c) * 16 + (← hexValue? d)
  some (high * 256 + low)

/-- Whether a unit is the first of a pair. -/
def isHighUnit (n : Nat) : Bool := 0xD800 ≤ n && n ≤ 0xDBFF

/-- Whether a unit is the second of a pair. -/
def isLowUnit (n : Nat) : Bool := 0xDC00 ≤ n && n ≤ 0xDFFF

/-- The character of a unit on its own. A unit without its other half is no character, so a text
cannot hold it: the replacement character is read in its place, and what the unit was is lost. -/
def unitChar (n : Nat) : Char :=
  if isHighUnit n || isLowUnit n then '\uFFFD' else Char.ofNat n

/-- The character of a pair of units. -/
def pairChar (high low : Nat) : Char :=
  Char.ofNat (0x10000 + (high - 0xD800) * 0x400 + (low - 0xDC00))

/-- The character behind a backslash, if one letter names it. -/
def namedEscape? (c : Char) : Option Char :=
  if c = '"' ∨ c = '\\' ∨ c = '/' then some c
  else if c = 'n' then some '\n'
  else if c = 'r' then some '\r'
  else if c = 't' then some '\t'
  else if c = 'b' then some '\x08'
  else if c = 'f' then some '\x0c'
  else none

/-- A unit, and the second half of its pair if one follows. -/
def readUnits (a b c d : Char) (s : List Char) : Option (Char × List Char) := do
  let first ← unit? a b c d
  match s with
  | '\\' :: 'u' :: e :: f :: g :: h :: rest =>
    let second ← if isHighUnit first then unit? e f g h else some 0
    if isHighUnit first && isLowUnit second then some (pairChar first second, rest)
    else some (unitChar first, s)
  | _ => some (unitChar first, s)

/-- The next character of a string, which may be escaped. -/
def readChar : List Char → Option (Char × List Char)
  | '\\' :: 'u' :: a :: b :: c :: d :: s => readUnits a b c d s
  | '\\' :: c :: s => (namedEscape? c).map (·, s)
  | '\\' :: [] => none
  | c :: s => if c.toNat < 0x20 then none else some (c, s)
  | [] => none

/-- The rest of a string up to its closing quote. -/
def readString : Nat → List Char → Except ReadError (List Char × List Char)
  | 0, _ => .error .malformed
  | fuel + 1, s =>
    match s with
    | '"' :: rest => .ok ([], rest)
    | s =>
      match readChar s with
      | none => .error .malformed
      | some (c, rest) => (readString fuel rest).map fun (cs, rest) => (c :: cs, rest)

/-- A point with digits behind it, if that is what follows. -/
def readFraction (s : List Char) : Option (List Char × List Char) :=
  match s with
  | '.' :: t =>
    let (digits, rest) := Decimal.takeDigits t
    if digits.isEmpty then none else some (digits, rest)
  | _ => none

/-- A letter `e` with an optional sign and digits, if that is what follows. -/
def readExponent (s : List Char) : Option (Int × List Char) :=
  match s with
  | c :: t =>
    if c = 'e' ∨ c = 'E' then
      let (negative, t) := Decimal.takeSign t
      let (digits, rest) := Decimal.takeDigits t
      if digits.isEmpty then none
      else
        let value := Decimal.digitsValue digits
        some (if negative then -value else value, rest)
    else none
  | [] => none

/-- A number, of the given sign. -/
def readNumber (negative : Bool) (s : List Char) : Except ReadError (Json × List Char) :=
  let (whole, rest) := Decimal.takeDigits s
  if whole.isEmpty ∨ (whole.head? = some '0' ∧ 1 < whole.length) then .error .malformed
  else
    match readFraction rest, readExponent ((readFraction rest).elim rest (·.2)) with
    | none, none =>
      if maxDigits < whole.length then .error .hugeInteger
      else
        let value := Decimal.digitsValue whole
        .ok (.int (if negative then -value else value), rest)
    | fraction, exponent =>
      let rest := exponent.elim (fraction.elim rest (·.2)) (·.2)
      let decimal :=
        Decimal.ofParts negative whole (fraction.elim [] (·.1)) (exponent.elim 0 (·.1))
      .ok (.float decimal.toBinary64, rest)

/-- A value without parts. -/
def readScalar : List Char → Except ReadError (Json × List Char)
  | 'n' :: 'u' :: 'l' :: 'l' :: s => .ok (.null, s)
  | 't' :: 'r' :: 'u' :: 'e' :: s => .ok (.bool true, s)
  | 'f' :: 'a' :: 'l' :: 's' :: 'e' :: s => .ok (.bool false, s)
  | 'N' :: 'a' :: 'N' :: s => .ok (.float .nan, s)
  | 'I' :: 'n' :: 'f' :: 'i' :: 'n' :: 'i' :: 't' :: 'y' :: s => .ok (.float (.infinite false), s)
  | '-' :: 'I' :: 'n' :: 'f' :: 'i' :: 'n' :: 'i' :: 't' :: 'y' :: s =>
    .ok (.float (.infinite true), s)
  | '-' :: s => readNumber true s
  | s => readNumber false s

/-- The value of a key, behind its opening quote and up to the colon. -/
def readKey (fuel : Nat) (s : List Char) : Except ReadError (String × List Char) := do
  match s with
  | '"' :: s =>
    let (key, s) ← readString fuel s
    match skipSpace s with
    | ':' :: s => .ok (String.ofList key, skipSpace s)
    | _ => .error .malformed
  | _ => .error .malformed

mutual

/-- A value, in which so many arrays and objects may stand in one another. -/
def readValue : Nat → Nat → List Char → Except ReadError (Json × List Char)
  | 0, _, _ => .error .malformed
  | fuel + 1, depth, s =>
    match s, depth with
    | '"' :: s, _ => (readString fuel s).map fun (text, rest) => (.str (String.ofList text), rest)
    | '[' :: s, depth + 1 =>
      match skipSpace s with
      | ']' :: rest => .ok (.arr [], rest)
      | s => (readItems fuel depth s).map fun (items, rest) => (.arr items, rest)
    | '{' :: s, depth + 1 =>
      match skipSpace s with
      | '}' :: rest => .ok (.obj [], rest)
      | s => (readFields fuel depth s).map fun (fields, rest) => (.obj (distinct fields), rest)
    | '[' :: _, 0 => .error .tooDeep
    | '{' :: _, 0 => .error .tooDeep
    | s, _ => readScalar s

/-- One or more items and the closing bracket. -/
def readItems : Nat → Nat → List Char → Except ReadError (List Json × List Char)
  | 0, _, _ => .error .malformed
  | fuel + 1, depth, s => do
    let (item, s) ← readValue fuel depth s
    match skipSpace s with
    | ',' :: s =>
      let (items, s) ← readItems fuel depth (skipSpace s)
      .ok (item :: items, s)
    | ']' :: s => .ok ([item], s)
    | _ => .error .malformed

/-- One or more fields and the closing brace. -/
def readFields : Nat → Nat → List Char → Except ReadError (List (String × Json) × List Char)
  | 0, _, _ => .error .malformed
  | fuel + 1, depth, s => do
    let (key, s) ← readKey fuel s
    let (value, s) ← readValue fuel depth s
    match skipSpace s with
    | ',' :: s =>
      let (fields, s) ← readFields fuel depth (skipSpace s)
      .ok ((key, value) :: fields, s)
    | '}' :: s => .ok ([(key, value)], s)
    | _ => .error .malformed

end

/-- How many arrays and objects may stand in one another if nothing else is said. -/
def maxDepth : Nat := 988

/-- The value that a text spells, with nothing but blanks around it. At most `depth` arrays and
objects may stand in one another. -/
def ofChars (s : List Char) (depth : Nat := maxDepth) : Except ReadError Json := do
  -- A character opens at most two readers inside of each other.
  let (value, rest) ← readValue (2 * s.length + 2) depth (skipSpace s)
  if (skipSpace rest).isEmpty then .ok value else .error .malformed

def parse (s : String) : Except ReadError Json :=
  ofChars s.toList

end ColumnFormula.Json
