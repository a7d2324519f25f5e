import ColumnFormula.Number.Decimal
import ColumnFormula.Proofs.Number.Rounding

/-!
# The value of a decimal

The guards against huge exponents change no value: a decimal is always read as its exact
ratio, rounded once. So zeros between the digits of a decimal and its exponent do not matter.
-/

namespace ColumnFormula

namespace Binary64

theorem roundRatio_eq_zero {num den : Nat} (h : 2 * num < den) : roundRatio num den = 0 := by
  have hquot : num / den = 0 := Nat.div_eq_of_lt (by omega)
  have hmod : num % den = num := Nat.mod_eq_of_lt (by omega)
  simp [roundRatio, hquot, spacing, roundHalfEven, hmod, h]

theorem roundRatio_zero (den : Nat) : roundRatio 0 den = 0 := by
  simp [roundRatio, roundHalfEven]

theorem le_roundHalfEven (num den : Nat) : num / den ≤ roundHalfEven num den := by
  unfold roundHalfEven
  grind

theorem two_pow_le_roundRatio {num den k : Nat} (h : Nat.pow 2 k ≤ num / den) :
    Nat.pow 2 k ≤ roundRatio num den := by
  have hpow : 0 < Nat.pow 2 k := Nat.two_pow_pos k
  have hlog : Nat.pow 2 (num / den).log2 ≤ num / den := two_pow_log2_le (by omega)
  have hk : k ≤ (num / den).log2 := (Nat.le_log2 (by omega)).mpr h
  obtain ⟨c, hc⟩ : spacing (num / den) ∣ Nat.pow 2 (num / den).log2 :=
    spacing_dvd_two_pow (Nat.le_refl _)
  have hround : c ≤ roundHalfEven num (den * spacing (num / den)) := by
    refine Nat.le_trans ?_ (le_roundHalfEven _ _)
    rw [← Nat.div_div_eq_div_mul, Nat.le_div_iff_mul_le (spacing_pos _), Nat.mul_comm, ← hc]
    exact hlog
  calc Nat.pow 2 k ≤ Nat.pow 2 (num / den).log2 := Nat.pow_le_pow_right (by omega) hk
    _ = c * spacing (num / den) := by rw [hc, Nat.mul_comm]
    _ ≤ roundRatio num den := Nat.mul_le_mul_right _ hround

/-- Ratios beyond the range are infinite. -/
theorem ofRatio_eq_infinite (negative : Bool) {num den k : Nat} (hden : 0 < den)
    (hk : 1024 ≤ k) (h : Nat.pow 2 k * den ≤ num) :
    ofRatio negative num den = .infinite negative := by
  have hquot : Nat.pow 2 (k + 1074) ≤ num * unitsPerOne / den := by
    rw [Nat.le_div_iff_mul_le hden, ← two_pow_mul_unitsPerOne, Nat.mul_right_comm]
    exact Nat.mul_le_mul_right _ h
  have hlimit : unitLimit ≤ roundRatio (num * unitsPerOne) den :=
    Nat.le_trans (unitLimit_le_two_pow (by omega)) (two_pow_le_roundRatio hquot)
  rw [ofRatio, ofUnits, dif_neg (by omega)]

/-- Ratios below half a unit are zero. -/
theorem ofRatio_eq_zero (negative : Bool) {num den : Nat} (h : 2 * (num * unitsPerOne) < den) :
    ofRatio negative num den = ofUnits negative 0 1 := by
  simp only [ofRatio, ofUnits, roundRatio_eq_zero h, roundRatio_zero]

/-- Equal ratios have one value. -/
theorem ofRatio_congr (negative : Bool) {num den num' den' : Nat} (hden : 0 < den)
    (hden' : 0 < den') (h : num * den' = num' * den) :
    ofRatio negative num den = ofRatio negative num' den' :=
  calc ofRatio negative num den
      = ofRatio negative (num * den') (den * den') := (ofRatio_mul negative hden').symm
    _ = ofRatio negative (num' * den) (den' * den) := by rw [h, Nat.mul_comm den]
    _ = ofRatio negative num' den' := ofRatio_mul negative hden

end Binary64

namespace Decimal

open Binary64

/-- The ratio that a decimal stands for, but for its sign. -/
def ratio (x : Decimal) : Nat × Nat :=
  if 0 ≤ x.exponent then (x.digits * Nat.pow 10 x.exponent.toNat, 1)
  else (x.digits, Nat.pow 10 (-x.exponent).toNat)

theorem ratio_den_pos (x : Decimal) : 0 < x.ratio.2 := by
  unfold ratio
  split
  · exact Nat.one_pos
  · exact Nat.pow_pos (by omega)

/-! ## The guards -/

theorem lt_ten_pow (n : Nat) : n < Nat.pow 10 (Nat.toDigits 10 n).length :=
  (Nat.length_toDigits_le_iff (by omega) Nat.length_toDigits_pos).mp (Nat.le_refl _)

theorem ten_pow_le {n : Nat} (hpos : 0 < n) :
    Nat.pow 10 ((Nat.toDigits 10 n).length - 1) ≤ n := by
  rcases Nat.lt_or_ge n (Nat.pow 10 ((Nat.toDigits 10 n).length - 1)) with hlt | hge
  · rcases Nat.eq_zero_or_pos ((Nat.toDigits 10 n).length - 1) with hzero | hlength
    · rw [hzero] at hlt
      have hone : Nat.pow 10 0 = 1 := rfl
      omega
    · have hle := (Nat.length_toDigits_le_iff (b := 10) (by omega) hlength).mpr hlt
      omega
  · exact hge

theorem double_unitsPerOne_le {k : Nat} (h : 331 ≤ k) : 2 * unitsPerOne ≤ Nat.pow 10 k := by
  -- A witness hides its exponent, so that this power is computed only here.
  obtain ⟨j, hj, hpow⟩ : ∃ j, j ≤ 331 ∧ 2 * unitsPerOne ≤ Nat.pow 10 j :=
    ⟨331, Nat.le_refl _, by decide +kernel⟩
  exact Nat.le_trans hpow (Nat.pow_le_pow_right (by omega) (by omega))

theorem exists_two_pow_le_ten_pow : ∃ k, 1024 ≤ k ∧ ∀ j, 310 ≤ j → Nat.pow 2 k ≤ Nat.pow 10 j := by
  obtain ⟨k, i, hk, hi, hpow⟩ : ∃ k i, 1024 ≤ k ∧ i ≤ 310 ∧ Nat.pow 2 k ≤ Nat.pow 10 i :=
    ⟨1024, 310, Nat.le_refl _, Nat.le_refl _, by decide +kernel⟩
  refine ⟨k, hk, ?_⟩
  intro j hj
  exact Nat.le_trans hpow (Nat.pow_le_pow_right (by omega) (by omega))

/-- A decimal with 330 zeros or more behind the point is less than half a unit. -/
theorem ofRatio_ratio_of_small {x : Decimal}
    (h : (Nat.toDigits 10 x.digits).length + x.exponent < -330) :
    ofRatio x.negative x.ratio.1 x.ratio.2 = ofUnits x.negative 0 1 := by
  obtain ⟨j, hj, hexponent⟩ : ∃ j, 331 ≤ j ∧
      (-x.exponent).toNat = (Nat.toDigits 10 x.digits).length + j :=
    ⟨(-x.exponent).toNat - (Nat.toDigits 10 x.digits).length, by omega, by omega⟩
  rw [ratio, if_neg (by omega), hexponent]
  apply ofRatio_eq_zero
  calc 2 * (x.digits * unitsPerOne) = x.digits * (2 * unitsPerOne) := Nat.mul_left_comm _ _ _
    _ < Nat.pow 10 (Nat.toDigits 10 x.digits).length * (2 * unitsPerOne) :=
        Nat.mul_lt_mul_of_pos_right (lt_ten_pow _) (Nat.mul_pos (by omega) unitsPerOne_pos)
    _ ≤ Nat.pow 10 (Nat.toDigits 10 x.digits).length * Nat.pow 10 j :=
        Nat.mul_le_mul_left _ (double_unitsPerOne_le hj)
    _ = Nat.pow 10 ((Nat.toDigits 10 x.digits).length + j) := (Nat.pow_add 10 _ _).symm

/-- A decimal whose first digit stands 310 places or more before the point is out of range. -/
theorem ofRatio_ratio_of_large {x : Decimal} (hdigits : x.digits ≠ 0)
    (h : 310 < (Nat.toDigits 10 x.digits).length + x.exponent) :
    ofRatio x.negative x.ratio.1 x.ratio.2 = .infinite x.negative := by
  obtain ⟨k, hk, hpow⟩ := exists_two_pow_le_ten_pow
  have hlead := ten_pow_le (Nat.pos_of_ne_zero hdigits)
  apply ofRatio_eq_infinite x.negative x.ratio_den_pos hk
  unfold ratio
  split
  next hexponent =>
    rw [Nat.mul_one]
    calc Nat.pow 2 k
        ≤ Nat.pow 10 ((Nat.toDigits 10 x.digits).length - 1 + x.exponent.toNat) :=
          hpow _ (by omega)
      _ = Nat.pow 10 ((Nat.toDigits 10 x.digits).length - 1) * Nat.pow 10 x.exponent.toNat :=
          Nat.pow_add 10 _ _
      _ ≤ x.digits * Nat.pow 10 x.exponent.toNat := Nat.mul_le_mul_right _ hlead
  next hexponent =>
    have hlength : (Nat.toDigits 10 x.digits).length - 1 - (-x.exponent).toNat +
        (-x.exponent).toNat = (Nat.toDigits 10 x.digits).length - 1 := by omega
    calc Nat.pow 2 k * Nat.pow 10 (-x.exponent).toNat
        ≤ Nat.pow 10 ((Nat.toDigits 10 x.digits).length - 1 - (-x.exponent).toNat) *
            Nat.pow 10 (-x.exponent).toNat := Nat.mul_le_mul_right _ (hpow _ (by omega))
      _ = Nat.pow 10 ((Nat.toDigits 10 x.digits).length - 1) := by
          conv => rhs; rw [← hlength]
          exact (Nat.pow_add 10 _ _).symm
      _ ≤ x.digits := hlead

/-- The value of a decimal is its ratio, rounded. -/
theorem toBinary64_eq_ofRatio (x : Decimal) :
    x.toBinary64 = ofRatio x.negative x.ratio.1 x.ratio.2 := by
  by_cases hdigits : x.digits = 0
  · have hratio : x.ratio.1 = 0 := by
      unfold ratio
      split <;> simp [hdigits]
    simp only [toBinary64, hdigits, true_or, if_true, hratio]
    rw [ofRatio, Nat.zero_mul]
    simp only [ofUnits, roundRatio_zero]
  · unfold toBinary64
    simp only [hdigits, false_or]
    split
    next hsmall => exact (ofRatio_ratio_of_small hsmall).symm
    split
    next hlarge => exact (ofRatio_ratio_of_large hdigits hlarge).symm
    unfold ratio
    split <;> rfl

theorem ten_pow_add (m n : Nat) : Nat.pow 10 (m + n) = Nat.pow 10 m * Nat.pow 10 n :=
  Nat.pow_add 10 m n

/-- Zeros behind the digits of a decimal count as places of its exponent. -/
theorem toBinary64_shift (negative : Bool) (digits k : Nat) (exponent : Int) :
    (Decimal.mk negative (digits * Nat.pow 10 k) (exponent - k)).toBinary64 =
      (Decimal.mk negative digits exponent).toBinary64 := by
  rw [toBinary64_eq_ofRatio, toBinary64_eq_ofRatio]
  apply ofRatio_congr negative (ratio_den_pos _) (ratio_den_pos _)
  -- The exponent may be below zero for both decimals, for none, or only for the shifted one.
  unfold ratio
  dsimp only
  split
  next hshifted =>
    have hplaces : exponent.toNat = k + (exponent - k).toNat := by omega
    rw [if_pos (by omega), hplaces, ten_pow_add, Nat.mul_assoc digits]
  split
  next hexponent =>
    have hplaces : k = exponent.toNat + (-(exponent - k)).toNat := by omega
    conv => lhs; rw [hplaces]
    rw [ten_pow_add, Nat.mul_one, Nat.mul_assoc digits]
  next hexponent =>
    have hplaces : (-(exponent - k)).toNat = k + (-exponent).toNat := by omega
    rw [hplaces, ten_pow_add, Nat.mul_assoc digits]

end Decimal

end ColumnFormula
