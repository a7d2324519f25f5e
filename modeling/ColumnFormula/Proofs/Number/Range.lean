import ColumnFormula.Proofs.Number.Decimal
import ColumnFormula.Proofs.Number.Shortest

/-!
# The range of finite numbers

Rounding leaves the range from half a spacing below the first power of two that is out of it.
So a sum of two numbers is finite exactly if its exact value stays below that, a quotient by a
number that is not less than one always is, and a sum that has left the range once never comes
back.
-/

namespace ColumnFormula.Binary64

/-! ## Where rounding leaves the range -/

/-- The first magnitude, in units, that is rounded to an infinity; its value is `2 ^ 1024 - 2 ^ 970`. -/
def overflowUnits : Nat := unitLimit - Nat.pow 2 2044

/-- A ratio is rounded below an even number if it lies more than one half below it. -/
theorem roundHalfEven_lt_iff {num den m : Nat} (hden : 0 < den) (hm : m % 2 = 0) :
    roundHalfEven num den < m ↔ 2 * num + den < 2 * (m * den) := by
  have hsplit : num / den * den + num % den = num := Nat.div_add_mod' num den
  have hmod : num % den < den := Nat.mod_lt _ hden
  unfold roundHalfEven
  rcases Nat.lt_trichotomy (num / den + 1) m with hlt | rfl | hgt
  · have hprod : (num / den + 2) * den ≤ m * den := Nat.mul_le_mul_right den hlt
    rw [Nat.add_mul] at hprod
    grind
  · rw [Nat.succ_mul]
    grind
  · have hprod : m * den ≤ num / den * den := Nat.mul_le_mul_right den (by omega)
    grind

/-- The numbers next below a power of two lie a spacing below it, and ratios are rounded up to
the power from the middle between. -/
theorem roundRatio_lt_two_pow_iff {num den : Nat} (hden : 0 < den) (j : Nat) :
    roundRatio num den < Nat.pow 2 (j + 54) ↔
      num < (Nat.pow 2 (j + 54) - Nat.pow 2 j) * den := by
  have hj : 0 < Nat.pow 2 j := Nat.two_pow_pos j
  have hhalf : Nat.pow 2 (j + 54) = 2 * Nat.pow 2 (j + 53) := Nat.pow_succ'
  have hbelow : 2 * Nat.pow 2 j ≤ Nat.pow 2 (j + 53) :=
    Nat.le_trans (Nat.le_of_eq Nat.pow_succ'.symm) (Nat.pow_le_pow_right (by omega) (by omega))
  rcases Nat.lt_or_ge (num / den) (Nat.pow 2 (j + 53)) with hsmall | hlarge
  · have hround := roundRatio_le_two_pow hsmall
    have hnum := (Nat.div_lt_iff_lt_mul hden).mp hsmall
    have hprod : Nat.pow 2 (j + 53) * den ≤ (Nat.pow 2 (j + 54) - Nat.pow 2 j) * den :=
      Nat.mul_le_mul_right den (by omega)
    constructor <;> intro <;> omega
  rcases Nat.lt_or_ge (num / den) (Nat.pow 2 (j + 54)) with hin | hout
  · have hlog : (num / den).log2 = j + 53 := by
      rw [Nat.log2_eq_iff (by omega)]
      exact ⟨hlarge, hin⟩
    have hspacing : spacing (num / den) = 2 * Nat.pow 2 j := by
      rw [spacing, hlog, show j + 53 - 52 = j + 1 by omega]
      exact Nat.pow_succ'
    have hpower : Nat.pow 2 (j + 54) = Nat.pow 2 53 * (2 * Nat.pow 2 j) := by
      rw [show j + 54 = 53 + (j + 1) by omega]
      exact (Nat.pow_add 2 53 (j + 1)).trans (congrArg _ Nat.pow_succ')
    have hprod : Nat.pow 2 53 * (den * (2 * Nat.pow 2 j)) = Nat.pow 2 (j + 54) * den := by
      rw [Nat.mul_left_comm, hpower, Nat.mul_comm]
    have hunit : den * (2 * Nat.pow 2 j) = 2 * (Nat.pow 2 j * den) := by
      rw [Nat.mul_left_comm, Nat.mul_comm den]
    rw [roundRatio, hspacing]
    conv => lhs; rhs; rw [hpower]
    rw [Nat.mul_lt_mul_right (by omega),
      roundHalfEven_lt_iff (Nat.mul_pos hden (by omega)) (by decide), hprod, hunit, Nat.sub_mul]
    omega
  · have hround := two_pow_le_roundRatio hout
    have hnum := (Nat.le_div_iff_mul_le hden).mp hout
    have hprod : (Nat.pow 2 (j + 54) - Nat.pow 2 j) * den ≤ Nat.pow 2 (j + 54) * den :=
      Nat.mul_le_mul_right den (Nat.sub_le _ _)
    constructor <;> intro <;> omega

theorem roundRatio_lt_unitLimit_iff {num den : Nat} (hden : 0 < den) :
    roundRatio num den < unitLimit ↔ num < overflowUnits * den := by
  -- The exponents are forgotten first, or else the powers would be computed.
  obtain ⟨j, hlow, hhigh⟩ : ∃ j, 2044 = j ∧ 2098 = j + 54 := ⟨2044, rfl, rfl⟩
  delta overflowUnits unitLimit
  rw [hlow, hhigh]
  exact roundRatio_lt_two_pow_iff hden j

theorem isFinite_ofUnits_iff (negative : Bool) {num den : Nat} (hden : 0 < den) :
    (ofUnits negative num den).isFinite = true ↔ num < overflowUnits * den := by
  rw [← roundRatio_lt_unitLimit_iff hden, ofUnits]
  split
  next hlt => simp [isFinite, hlt]
  next hnot => simp [isFinite, hnot]

/-- A magnitude in range lies below all that are rounded out of it. -/
theorem Representable.lt_overflowUnits {units : Nat} (h : Representable units) :
    units < overflowUnits := by
  have hself : roundRatio units 1 = units := by
    simpa using roundRatio_self h.2 Nat.one_pos
  have hlt : roundRatio units 1 < unitLimit := by
    rw [hself]
    exact h.1
  simpa using (roundRatio_lt_unitLimit_iff Nat.one_pos).mp hlt

/-! ## Sums -/

@[simp] theorem isFinite_finite (negative : Bool) (units : Nat) (h : Representable units) :
    (finite negative units h).isFinite = true := rfl

theorem exists_eq_finite {x : Binary64} (h : x.isFinite = true) :
    ∃ negative units, ∃ hunits : Representable units, x = .finite negative units hunits := by
  cases x with
  | nan => cases h
  | infinite negative => cases h
  | finite negative units hunits => exact ⟨negative, units, hunits, rfl⟩

/-- The units of a finite value, with its sign. -/
def signedUnits : Binary64 → Int
  | .finite negative units _ => signed negative units
  | _ => 0

/-- Adding a finite number keeps a sum in range exactly if it was there before and the exact sum
is not rounded out of it. -/
theorem isFinite_add_iff {x y : Binary64} (hy : y.isFinite = true) :
    (x.add y).isFinite = true ↔
      x.isFinite = true ∧ (x.signedUnits + y.signedUnits).natAbs < overflowUnits := by
  obtain ⟨n, b, hb, rfl⟩ := exists_eq_finite hy
  cases x with
  | nan => simp [add, isFinite]
  | infinite m => simp [add, isFinite]
  | finite m a ha =>
      have hpos : 0 < overflowUnits := Nat.lt_of_le_of_lt (Nat.zero_le _) ha.lt_overflowUnits
      simp only [add, signedUnits]
      split
      next hzero => simp [isFinite_ofUnits_iff _ Nat.one_pos, hzero, hpos]
      next => simp [isFinite_ofUnits_iff _ Nat.one_pos]

theorem ofUnits_ne_nan (negative : Bool) (num den : Nat) : ofUnits negative num den ≠ .nan := by
  intro heq
  unfold ofUnits at heq
  split at heq
  · cases heq
  · cases heq

theorem add_ne_nan {x y : Binary64} (hx : x ≠ .nan) (hy : y.isFinite = true) : x.add y ≠ .nan := by
  obtain ⟨n, b, hb, rfl⟩ := exists_eq_finite hy
  cases x with
  | nan => exact absurd rfl hx
  | infinite m => nofun
  | finite m a ha =>
      simp only [add]
      split
      · exact ofUnits_ne_nan _ _ _
      · exact ofUnits_ne_nan _ _ _

/-! ## Quotients -/

section Quotient

variable {x : Binary64} {negative : Bool} {units : Nat} {h : Representable units}

theorem isFinite_div_iff (hone : unitsPerOne ≤ units) :
    (x.div (.finite negative units h)).isFinite = true ↔ x.isFinite = true := by
  cases x with
  | nan => simp [div, isFinite]
  | infinite m => simp [div, isFinite]
  | finite m a ha =>
      have hpos : 0 < units := Nat.lt_of_lt_of_le unitsPerOne_pos hone
      rw [div, if_neg (Nat.ne_of_gt hpos), ofRatio, isFinite_ofUnits_iff _ hpos]
      have hlt : a * unitsPerOne < overflowUnits * units :=
        Nat.mul_lt_mul_of_lt_of_le ha.lt_overflowUnits hone hpos
      simp [hlt]

theorem div_ne_nan (hx : x ≠ .nan) (hpos : 0 < units) :
    x.div (.finite negative units h) ≠ .nan := by
  cases x with
  | nan => exact absurd rfl hx
  | infinite m => nofun
  | finite m a ha =>
      rw [div, if_neg (Nat.ne_of_gt hpos)]
      exact ofUnits_ne_nan _ _ _

end Quotient

/-- A positive whole number of a machine word is finite and not less than one. -/
theorem exists_ofNat {n k : Nat} (hpos : 0 < n) (h : n < Nat.pow 2 k) (hk : k < 1024) :
    ∃ units, ∃ hunits : Representable units, ofNat n = .finite false units hunits ∧
      unitsPerOne ≤ units := by
  have hone : unitsPerOne ≤ roundRatio (n * unitsPerOne) 1 := by
    have hle : unitsPerOne ≤ n * unitsPerOne / 1 := by
      rw [Nat.div_one]
      exact Nat.le_mul_of_pos_left _ hpos
    delta unitsPerOne at hle ⊢
    generalize 1074 = j at hle ⊢
    exact two_pow_le_roundRatio hle
  have hfinite := isFinite_ofNat h hk
  rw [ofNat, ofRatio, ofUnits] at hfinite ⊢
  split at hfinite
  next hlt => exact ⟨_, _, dif_pos hlt, hone⟩
  next => cases hfinite

/-- Whole numbers up to `2 ^ 53` are not rounded. -/
theorem signedUnits_ofNat {n : Nat} (h : n ≤ Nat.pow 2 53) :
    (ofNat n).signedUnits = ((n * unitsPerOne : Nat) : Int) := by
  have hdvd : spacing (n * unitsPerOne) ∣ n * unitsPerOne := by
    delta unitsPerOne
    generalize 1074 = j
    exact spacing_dvd h
  have hround := roundRatio_self hdvd Nat.one_pos
  rw [Nat.mul_one] at hround
  have hfinite : (ofNat n).isFinite = true :=
    isFinite_ofNat (Nat.lt_of_le_of_lt h (by decide : Nat.pow 2 53 < Nat.pow 2 54)) (by decide)
  rw [ofNat, ofRatio, ofUnits] at hfinite ⊢
  split at hfinite
  next hlt =>
    rw [dif_pos hlt]
    exact congrArg Int.ofNat hround
  next => cases hfinite

end ColumnFormula.Binary64
