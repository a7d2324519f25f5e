import ColumnFormula.Number.Binary64

/-!
# Decimal numerals

The one form of number that a cell may hold: an optional sign, digits with at most one
point among them, and an optional exponent, all in ASCII. A numeral denotes an exact
decimal, whose nearest binary64 value is computed in exact arithmetic.
-/

namespace ColumnFormula

/-- The number `± digits · 10 ^ exponent`. -/
structure Decimal where
  negative : Bool
  digits : Nat
  exponent : Int
  deriving DecidableEq, Repr

namespace Decimal

/-- The value of a row of digits. -/
def digitsValue (ds : List Char) : Nat :=
  Nat.ofDigitChars 10 ds 0

/-- Whether a sign in front is a minus, and what follows the sign. -/
def takeSign : List Char → Bool × List Char
  | '-' :: s => (true, s)
  | '+' :: s => (false, s)
  | s => (false, s)

/-- The digits in front, and what follows them. -/
def takeDigits (s : List Char) : List Char × List Char :=
  s.span Char.isDigit

/-- An exponent: nothing, or a letter `e` with an optional sign and at least one digit. -/
def exponent? : List Char → Option Int
  | [] => some 0
  | c :: s =>
    if c = 'e' ∨ c = 'E' then
      let (negative, s) := takeSign s
      let (ds, rest) := takeDigits s
      if ds.isEmpty ∨ ¬rest.isEmpty then none
      else some (if negative then -digitsValue ds else digitsValue ds)
    else none

/-- The decimal with the given digits before and after its point. -/
def ofParts (negative : Bool) (whole fraction : List Char) (exponent : Int) : Decimal :=
  ⟨negative, digitsValue (whole ++ fraction), exponent - fraction.length⟩

/-- The number that a numeral denotes. -/
def ofChars? (s : List Char) : Option Decimal :=
  let (negative, s) := takeSign s
  let (whole, s) := takeDigits s
  let (fraction, s) := match s with
    | '.' :: s => takeDigits s
    | s => ([], s)
  if whole.isEmpty ∧ fraction.isEmpty then none
  else (exponent? s).map (ofParts negative whole fraction)

/-- The value nearest to a decimal. -/
def toBinary64 (x : Decimal) : Binary64 :=
  -- The place of the first digit tells what is out of range and what is less than half a
  -- unit, so that huge exponents need no huge powers.
  let places := (Nat.toDigits 10 x.digits).length + x.exponent
  if x.digits = 0 ∨ places < -330 then Binary64.ofUnits x.negative 0 1
  else if 310 < places then .infinite x.negative
  else if 0 ≤ x.exponent then
    Binary64.ofRatio x.negative (x.digits * Nat.pow 10 x.exponent.toNat) 1
  else Binary64.ofRatio x.negative x.digits (Nat.pow 10 (-x.exponent).toNat)

end Decimal

end ColumnFormula
