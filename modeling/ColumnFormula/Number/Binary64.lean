import ColumnFormula.Number.Rounding

/-!
# Binary64 numbers

Numbers are IEEE binary64 values: NaN, two infinities, and a sign with a representable
count of units of 2^-1074. Since every finite value is a whole number of units, sums and
comparisons are exact integer arithmetic, and each operation rounds once, to nearest with
ties to even.
-/

namespace ColumnFormula

/-- A binary64 value. -/
inductive Binary64 where
  | nan
  | infinite (negative : Bool)
  | finite (negative : Bool) (units : Nat) (representable : Binary64.Representable units)
  deriving DecidableEq

namespace Binary64

/-- How many units make one. -/
def unitsPerOne : Nat := Nat.pow 2 1074

/-- The value nearest to `num / den` units, infinite if that is out of range. -/
def ofUnits (negative : Bool) (num den : Nat) : Binary64 :=
  if h : roundRatio num den < unitLimit then
    .finite negative (roundRatio num den) ⟨h, spacing_roundRatio_dvd num den⟩
  else .infinite negative

/-- The value nearest to `num / den`. -/
def ofRatio (negative : Bool) (num den : Nat) : Binary64 :=
  ofUnits negative (num * unitsPerOne) den

def ofNat (n : Nat) : Binary64 :=
  ofRatio false n 1

def zero : Binary64 :=
  .finite false 0 ⟨by decide +kernel, Nat.dvd_zero _⟩

/-- A sign and a magnitude as an integer. -/
def signed (negative : Bool) (units : Nat) : Int :=
  if negative then -units else units

def neg : Binary64 → Binary64
  | .nan => .nan
  | .infinite negative => .infinite !negative
  | .finite negative units h => .finite (!negative) units h

/-- The sum, rounded. Opposite values have the sum positive zero, and two negative zeros
have the sum negative zero. -/
def add : Binary64 → Binary64 → Binary64
  | .nan, _ => .nan
  | _, .nan => .nan
  | .infinite m, .infinite n => if m = n then .infinite m else .nan
  | .infinite m, .finite .. => .infinite m
  | .finite .., .infinite n => .infinite n
  | .finite m a _, .finite n b _ =>
    let total := signed m a + signed n b
    if total = 0 then ofUnits (m && n) 0 1 else ofUnits (total < 0) total.natAbs 1

def sub (x y : Binary64) : Binary64 :=
  x.add y.neg

def div : Binary64 → Binary64 → Binary64
  | .nan, _ => .nan
  | _, .nan => .nan
  | .infinite _, .infinite _ => .nan
  | .infinite m, .finite n _ _ => .infinite (m != n)
  | .finite m _ _, .infinite n => ofUnits (m != n) 0 1
  | .finite m a _, .finite n b _ =>
    if b = 0 then (if a = 0 then .nan else .infinite (m != n))
    else ofRatio (m != n) a b

/-- Whether one value is less than another. NaN is neither less nor greater than anything,
and the two zeros are equal. -/
def lt : Binary64 → Binary64 → Bool
  | .nan, _ => false
  | _, .nan => false
  | .infinite m, .infinite n => m && !n
  | .infinite m, .finite .. => m
  | .finite .., .infinite n => !n
  | .finite m a _, .finite n b _ => signed m a < signed n b

/-- Whether a value is neither NaN nor infinite. -/
def isFinite : Binary64 → Bool
  | .finite .. => true
  | _ => false

def isInteger : Binary64 → Bool
  | .finite _ units _ => units % unitsPerOne == 0
  | _ => false

/-- The whole number next to a finite value on the side of zero. -/
def truncate (negative : Bool) (units : Nat) : Int :=
  signed negative (units / unitsPerOne)

/-- Whether a value is zero, of either sign. -/
def isZero : Binary64 → Bool
  | .finite _ units _ => units == 0
  | _ => false

end Binary64

end ColumnFormula
