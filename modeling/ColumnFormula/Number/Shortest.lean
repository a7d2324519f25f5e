import ColumnFormula.Number.Binary64

/-!
# The shortest decimal that reads back

Every finite binary64 magnitude is the nearest one to all numbers of an interval around
it. `shortest` looks on coarser decimal grids first and takes the grid point nearest to the
magnitude as soon as one lies in the interval. On the grid of 10^-1074 the magnitude is
itself a point, so the search ends there at the latest.
-/

namespace ColumnFormula.Binary64

/-- Four times the first number that reads back as `units`. -/
def quadrupleLow (units : Nat) : Nat :=
  -- The gap below a power of two is half of the gap above it.
  if units = Nat.pow 2 units.log2 ∧ 53 ≤ units.log2 then 4 * units - spacing units
  else 4 * units - 2 * spacing units

/-- Four times the last number that reads back as `units`. -/
def quadrupleHigh (units : Nat) : Nat :=
  4 * units + 2 * spacing units

/-- Whether the ratio `num / den` of units reads back as `units`: the ends of the interval
do if the last of the 53 binary digits is zero. -/
def readsBack (units num den : Nat) : Bool :=
  let low := quadrupleLow units * den
  let high := quadrupleHigh units * den
  if units / spacing units % 2 = 0 then low ≤ 4 * num && 4 * num ≤ high
  else low < 4 * num && 4 * num < high

/-- The exponent of the first significant digit of a magnitude. -/
def leadingExponent (units : Nat) : Int :=
  -- Even the least magnitude has its first digit among 400 behind the point.
  (Nat.toDigits 10 (units * Nat.pow 10 400 / unitsPerOne)).length - 401

/-- The multiple `k · 10 ^ exponent` in units, as a ratio. -/
def gridPoint (k : Nat) (exponent : Int) : Nat × Nat :=
  if 0 ≤ exponent then (k * Nat.pow 10 exponent.toNat * unitsPerOne, 1)
  else (k * unitsPerOne, Nat.pow 10 (-exponent).toNat)

/-- The point of the grid of `10 ^ exponent` that reads back as `units` and is nearest to it;
of two, the even one. -/
def gridHit? (units : Nat) (exponent : Int) : Option Nat :=
  let scaled := if 0 ≤ exponent then units else units * Nat.pow 10 (-exponent).toNat
  let place := if 0 ≤ exponent then Nat.pow 10 exponent.toNat * unitsPerOne else unitsPerOne
  let low := scaled / place
  let hits := fun k => readsBack units (gridPoint k exponent).1 (gridPoint k exponent).2
  match hits low, hits (low + 1) with
  | true, true => some (roundHalfEven scaled place)
  | true, false => some low
  | false, true => some (low + 1)
  | false, false => none

/-- The first hit on ever finer grids, at the latest the exact value. -/
def searchGrids (units : Nat) : Nat → Int → Nat × Int
  | 0, _ => (units * Nat.pow 5 1074, -1074)
  | fuel + 1, exponent =>
    match gridHit? units exponent with
    | some k => (k, exponent)
    | none => searchGrids units fuel (exponent - 1)

/-- Digits `d` and exponent `e` such that `d · 10 ^ e` is a shortest decimal that reads back
as `units`, and of those the nearest. -/
def shortest (units : Nat) : Nat × Int :=
  let exponent := leadingExponent units
  searchGrids units (exponent + 1074).toNat exponent

end ColumnFormula.Binary64
