import ColumnFormula.Proofs.Number.Decimal

/-!
# Shortest decimals read back

A point of a grid is taken only if it lies in the interval of the magnitude, and the exact
value, at which the search ends at the latest, lies there too. So the digits and the exponent
that `shortest` gives are read as the magnitude they were made from.
-/

namespace ColumnFormula.Binary64

theorem gridPoint_fst (negative : Bool) (k : Nat) (exponent : Int) :
    (gridPoint k exponent).1 = (Decimal.mk negative k exponent).ratio.1 * unitsPerOne := by
  unfold gridPoint Decimal.ratio
  split <;> rfl

theorem gridPoint_snd (negative : Bool) (k : Nat) (exponent : Int) :
    (gridPoint k exponent).2 = (Decimal.mk negative k exponent).ratio.2 := by
  unfold gridPoint Decimal.ratio
  split <;> rfl

/-- A hit on a grid lies in the interval. -/
theorem readsBack_of_gridHit? {units k : Nat} {exponent : Int}
    (h : gridHit? units exponent = some k) :
    readsBack units (gridPoint k exponent).1 (gridPoint k exponent).2 = true := by
  unfold gridHit? at h
  simp only at h
  split at h
  next hlow hhigh =>
    cases h
    unfold roundHalfEven
    grind
  next hlow _ =>
    cases h
    exact hlow
  next _ hhigh =>
    cases h
    exact hhigh
  next => cases h

theorem roundRatio_self {units den : Nat} (hdvd : spacing units ∣ units) (hden : 0 < den) :
    roundRatio (units * den) den = units := by
  have hcancel : roundRatio (units * den) (1 * den) = roundRatio units 1 := roundRatio_mul hden
  rw [Nat.one_mul] at hcancel
  rw [hcancel]
  apply roundRatio_eq hdvd Nat.one_pos
  · rw [Nat.div_one]
  · omega
  · omega
  · have hpos := spacing_pos units
    omega

/-- On the grid of a unit the magnitude is a point itself. -/
theorem roundRatio_searchGrids_zero {units : Nat} (hdvd : spacing units ∣ units) (exponent : Int) :
    roundRatio (gridPoint (searchGrids units 0 exponent).1 (searchGrids units 0 exponent).2).1
      (gridPoint (searchGrids units 0 exponent).1 (searchGrids units 0 exponent).2).2 =
      units := by
  have hplaces : (-(-1074 : Int)).toNat = 1074 := rfl
  simp only [searchGrids]
  rw [gridPoint, if_neg (by decide), hplaces]
  delta unitsPerOne
  generalize 1074 = j
  -- A unit is so many powers of five of the last place.
  have hten : Nat.pow 5 j * Nat.pow 2 j = Nat.pow 10 j := (Nat.mul_pow 5 2 j).symm
  dsimp only
  rw [Nat.mul_assoc, hten]
  exact roundRatio_self hdvd (Nat.pow_pos (by omega))

/-- Whatever the search takes is rounded to the magnitude. -/
theorem roundRatio_searchGrids {units : Nat} (hpos : 0 < units) (hdvd : spacing units ∣ units)
    (fuel : Nat) (exponent : Int) :
    roundRatio
      (gridPoint (searchGrids units fuel exponent).1 (searchGrids units fuel exponent).2).1
      (gridPoint (searchGrids units fuel exponent).1 (searchGrids units fuel exponent).2).2 =
      units := by
  induction fuel generalizing exponent with
  | zero => exact roundRatio_searchGrids_zero hdvd exponent
  | succ fuel ih =>
      rw [searchGrids]
      split
      next k hhit =>
        refine roundRatio_of_readsBack hpos hdvd ?_ (readsBack_of_gridHit? hhit)
        rw [gridPoint_snd false]
        exact Decimal.ratio_den_pos _
      next => exact ih (exponent - 1)

theorem ofUnits_eq_finite (negative : Bool) {num den units : Nat} (h : Representable units)
    (hround : roundRatio num den = units) : ofUnits negative num den = .finite negative units h := by
  subst hround
  exact dif_pos h.1

/-- The shortest decimal of a magnitude is read as that magnitude. -/
theorem toBinary64_shortest (negative : Bool) {units : Nat} (hpos : 0 < units)
    (h : Representable units) :
    (Decimal.mk negative (shortest units).1 (shortest units).2).toBinary64 =
      .finite negative units h := by
  have hround := roundRatio_searchGrids hpos h.2 (leadingExponent units + 1074).toNat
    (leadingExponent units)
  have hshortest : searchGrids units (leadingExponent units + 1074).toNat (leadingExponent units) =
      shortest units := rfl
  rw [hshortest, gridPoint_fst negative, gridPoint_snd negative] at hround
  rw [Decimal.toBinary64_eq_ofRatio]
  exact ofUnits_eq_finite negative h hround

end ColumnFormula.Binary64
