import Mathlib.Algebra.Order.Field.Rat
import Mathlib.Tactic.FieldSimp
import Mathlib.Tactic.Positivity
import Mathlib.Tactic.Ring
import ColumnFormula.Proofs.Number.Range

/-!
# The nearest number

A ratio lies between two neighbours, and no other number is as near to it as one of these. So
rounding gives the number nearest to the exact value, and in the middle between two numbers the
one whose last binary digit is zero; and no other number of the same sign is described by this.
The value of a decimal is finite exactly if the decimal lies below the half-way point above the
greatest number.
-/

namespace ColumnFormula

namespace Binary64

variable {num den : Nat}

/-! ## The neighbours of a ratio -/

/-- The last of the 53 binary digits of a magnitude. -/
def lastBit (units : Nat) : Nat :=
  units / spacing units % 2

/-- The number next to a ratio that does not lie above it. -/
def below (num den : Nat) : Nat :=
  num / den / spacing (num / den) * spacing (num / den)

/-- The number next to a ratio that lies above it. -/
def above (num den : Nat) : Nat :=
  below num den + spacing (num / den)

theorem below_mul_le (num den : Nat) : below num den * den ≤ num :=
  Nat.le_trans (Nat.mul_le_mul_right den (Nat.div_mul_le_self _ _)) (Nat.div_mul_le_self num den)

theorem lt_above_mul (hden : 0 < den) : num < above num den * den := by
  rw [← Nat.div_lt_iff_lt_mul hden]
  exact Nat.lt_div_mul_add (spacing_pos _)

theorem two_pow_log2_le_below (h : 0 < num / den) : Nat.pow 2 (num / den).log2 ≤ below num den := by
  obtain ⟨c, hc⟩ : spacing (num / den) ∣ Nat.pow 2 (num / den).log2 :=
    spacing_dvd_two_pow (Nat.le_refl _)
  have hle : c ≤ num / den / spacing (num / den) := by
    rw [Nat.le_div_iff_mul_le (spacing_pos _), Nat.mul_comm, ← hc]
    exact two_pow_log2_le h
  rw [hc, Nat.mul_comm]
  exact Nat.mul_le_mul_right _ hle

/-- No number lies between the neighbours of a ratio. -/
theorem le_below_or_above_le (num den : Nat) {n : Nat} (h : spacing n ∣ n) :
    n ≤ below num den ∨ above num den ≤ n := by
  rcases Nat.lt_or_ge (below num den) n with hlt | hle
  · right
    have hlog : (num / den).log2 ≤ n.log2 := by
      rcases Nat.eq_zero_or_pos (num / den) with hzero | hpos
      · rw [hzero, Nat.log2_zero]
        exact Nat.zero_le _
      · have hbelow := two_pow_log2_le_below hpos
        exact (Nat.le_log2 (by omega)).mpr (by rw [← Nat.pow_eq]; omega)
    have hdvd : spacing (num / den) ∣ n :=
      Nat.dvd_trans (Nat.pow_dvd_pow 2 (Nat.sub_le_sub_right hlog 52)) h
    exact add_le_of_dvd (Nat.dvd_mul_left _ _) hdvd hlt
  · exact .inl hle

theorem spacing_mul_two_pow {m e : Nat} (hm : m < Nat.pow 2 53)
    (hlow : e = 0 ∨ Nat.pow 2 52 ≤ m) : spacing (m * Nat.pow 2 e) = Nat.pow 2 e := by
  have hlog : (m * Nat.pow 2 e).log2 - 52 = e := by
    rcases hlow with rfl | hlow
    · rcases Nat.eq_zero_or_pos m with rfl | hpos
      · rfl
      · have hlt : m.log2 < 53 := (Nat.log2_lt (by omega)).mpr hm
        rw [Nat.pow_eq, Nat.pow_zero, Nat.mul_one]
        omega
    · have hpos : 0 < Nat.pow 2 e := Nat.two_pow_pos e
      have hle : Nat.pow 2 (52 + e) ≤ m * Nat.pow 2 e := by
        rw [Nat.pow_eq, Nat.pow_add]
        exact Nat.mul_le_mul_right _ hlow
      have hlt : m * Nat.pow 2 e < Nat.pow 2 (52 + e + 1) :=
        calc m * Nat.pow 2 e < Nat.pow 2 53 * Nat.pow 2 e := Nat.mul_lt_mul_of_pos_right hm hpos
          _ = Nat.pow 2 (53 + e) := (Nat.pow_add 2 53 e).symm
          _ = Nat.pow 2 (52 + e + 1) := congrArg (Nat.pow 2) (by omega)
      have hne : m * Nat.pow 2 e ≠ 0 := Nat.ne_of_gt (Nat.lt_of_lt_of_le (Nat.two_pow_pos _) hle)
      rw [(Nat.log2_eq_iff hne).mpr ⟨hle, hlt⟩, Nat.add_sub_cancel_left]
  rw [spacing, hlog]

/-- The last digit of a whole number of spacings; a power of two begins a wider spacing. -/
theorem lastBit_mul_two_pow {m e : Nat} (hm : m ≤ Nat.pow 2 53) (hlow : e = 0 ∨ Nat.pow 2 52 ≤ m) :
    lastBit (m * Nat.pow 2 e) = m % 2 := by
  have hpos : 0 < Nat.pow 2 e := Nat.two_pow_pos e
  rcases Nat.lt_or_ge m (Nat.pow 2 53) with hlt | hge
  · rw [lastBit, spacing_mul_two_pow hlt hlow, Nat.mul_div_cancel m hpos]
  · obtain rfl : m = Nat.pow 2 53 := by omega
    have hdouble : Nat.pow 2 53 * Nat.pow 2 e = Nat.pow 2 52 * Nat.pow 2 (e + 1) := by
      simp only [Nat.pow_eq, ← Nat.pow_add]
      rw [show 53 + e = 52 + (e + 1) by omega]
    have hwide : 0 < Nat.pow 2 (e + 1) := Nat.two_pow_pos (e + 1)
    rw [lastBit, hdouble, spacing_mul_two_pow (by decide) (.inr (Nat.le_refl _)),
      Nat.mul_div_cancel _ hwide]

theorem below_spacings (num den : Nat) :
    num / den / spacing (num / den) < Nat.pow 2 53 ∧
      ((num / den).log2 - 52 = 0 ∨ Nat.pow 2 52 ≤ num / den / spacing (num / den)) := by
  constructor
  · exact Nat.div_lt_of_lt_mul (Nat.mul_comm _ _ ▸ lt_two_pow_mul_spacing (num / den))
  · rcases Nat.eq_zero_or_pos ((num / den).log2 - 52) with hzero | hpos
    · exact .inl hzero
    · right
      have hne : num / den ≠ 0 := by
        intro hzero
        simp [hzero] at hpos
      rw [Nat.le_div_iff_mul_le (spacing_pos _), spacing]
      refine Nat.le_trans (Nat.le_of_eq ?_) (two_pow_log2_le (Nat.pos_of_ne_zero hne))
      simp only [Nat.pow_eq, ← Nat.pow_add]
      rw [Nat.add_sub_cancel' (by omega)]

/-- Of the neighbours of a ratio, one has an even last digit and the other one an odd one. -/
theorem lastBit_neighbours (num den : Nat) :
    lastBit (below num den) = num / den / spacing (num / den) % 2 ∧
      lastBit (above num den) = (num / den / spacing (num / den) + 1) % 2 := by
  obtain ⟨hlt, hlow⟩ := below_spacings num den
  constructor
  · exact lastBit_mul_two_pow (Nat.le_of_lt hlt) hlow
  · have hsucc : above num den =
        (num / den / spacing (num / den) + 1) * Nat.pow 2 ((num / den).log2 - 52) := by
      rw [Nat.succ_mul]
      rfl
    rw [hsucc]
    exact lastBit_mul_two_pow hlt (hlow.imp_right fun hle => Nat.le_succ_of_le hle)

/-! ## Rounding to a neighbour -/

/-- A ratio is rounded to the neighbour that is not farther away, in the middle to the even one. -/
theorem roundRatio_cases (num den : Nat) :
    (roundRatio num den = below num den ∧ 2 * num ≤ (below num den + above num den) * den ∧
      (2 * num = (below num den + above num den) * den →
        lastBit (below num den) = 0 ∧ lastBit (above num den) = 1)) ∨
    (roundRatio num den = above num den ∧ (below num den + above num den) * den ≤ 2 * num ∧
      (2 * num = (below num den + above num den) * den →
        lastBit (above num den) = 0 ∧ lastBit (below num den) = 1)) := by
  obtain ⟨hbelow, habove⟩ := lastBit_neighbours num den
  have hquot : num / (den * spacing (num / den)) = num / den / spacing (num / den) :=
    (Nat.div_div_eq_div_mul ..).symm
  have hsplit : num / den / spacing (num / den) * (den * spacing (num / den)) +
      num % (den * spacing (num / den)) = num := by
    rw [← hquot, Nat.mul_comm]
    exact Nat.div_add_mod ..
  have hsum : (below num den + above num den) * den =
      2 * (num / den / spacing (num / den) * (den * spacing (num / den))) +
        den * spacing (num / den) := by
    unfold above below
    ring
  have hround : roundRatio num den =
      roundHalfEven num (den * spacing (num / den)) * spacing (num / den) := rfl
  rw [hround, hbelow, habove, hsum]
  unfold roundHalfEven
  dsimp only
  rw [hquot]
  split
  next hlt => exact .inl ⟨rfl, by omega, by omega⟩
  split
  next hgt => exact .inr ⟨Nat.succ_mul .., by omega, by omega⟩
  split
  next heven => exact .inl ⟨rfl, by omega, by omega⟩
  next hodd => exact .inr ⟨Nat.succ_mul .., by omega, by omega⟩

section Integers

variable {t : Int}

theorem le_below_or_above_le_int (num den : Nat) (h : spacing t.natAbs ∣ t.natAbs) :
    t ≤ below num den ∨ (above num den : Int) ≤ t := by
  rcases Int.lt_or_le t 0 with hlt | hle
  · exact .inl (by omega)
  · rcases le_below_or_above_le num den h with hbelow | habove
    · exact .inl (by omega)
    · exact .inr (by omega)

/-- Where a ratio lies between its neighbours, and where another number lies. -/
theorem neighbours_mul (num : Nat) (hden : 0 < den) (h : spacing t.natAbs ∣ t.natAbs) :
    (below num den : Int) * den ≤ num ∧ (num : Int) < above num den * den ∧
      (t * den ≤ below num den * den ∨ (above num den : Int) * den ≤ t * den) := by
  refine ⟨by exact_mod_cast below_mul_le num den, by exact_mod_cast lt_above_mul hden, ?_⟩
  rcases le_below_or_above_le_int num den h with hbelow | habove
  · exact .inl (Int.mul_le_mul_of_nonneg_right hbelow (by omega))
  · exact .inr (Int.mul_le_mul_of_nonneg_right habove (by omega))

/-- No number is nearer to a ratio than the one that it is rounded to. -/
theorem natAbs_roundRatio_le (hden : 0 < den) (h : spacing t.natAbs ∣ t.natAbs) :
    ((roundRatio num den : Int) * den - num).natAbs ≤ (t * den - num).natAbs := by
  obtain ⟨hbelow, habove, hother⟩ := neighbours_mul num hden h
  rcases roundRatio_cases num den with ⟨hround, hhalf, -⟩ | ⟨hround, hhalf, -⟩
  · rw [hround]
    rw [Nat.add_mul] at hhalf
    omega
  · rw [hround]
    rw [Nat.add_mul] at hhalf
    omega

/-- Another number that is as near is the other neighbour, and of these two the even one is
taken. -/
theorem lastBit_of_tie (hden : 0 < den) (h : spacing t.natAbs ∣ t.natAbs)
    (hne : t ≠ roundRatio num den)
    (htie : (t * den - num).natAbs = ((roundRatio num den : Int) * den - num).natAbs) :
    lastBit (roundRatio num den) = 0 ∧ lastBit t.natAbs = 1 := by
  obtain ⟨hbelow, habove, hother⟩ := neighbours_mul num hden h
  have hdiff : t * den ≠ roundRatio num den * den := fun heq =>
    hne (Int.eq_of_mul_eq_mul_right (by omega) heq)
  have hfrom : ∀ {n : Nat}, t * den = n * den → t.natAbs = n := by
    intro n heq
    rw [Int.eq_of_mul_eq_mul_right (by omega) heq, Int.natAbs_natCast]
  rcases roundRatio_cases num den with ⟨hround, hhalf, hlast⟩ | ⟨hround, hhalf, hlast⟩
  · rw [hround] at htie hdiff ⊢
    rw [Nat.add_mul] at hhalf hlast
    rw [hfrom (n := above num den) (by omega)]
    exact hlast (by omega)
  · rw [hround] at htie hdiff ⊢
    rw [Nat.add_mul] at hhalf hlast
    rw [hfrom (n := below num den) (by omega)]
    exact hlast (by omega)

end Integers

/-! ## The nearest number -/

/-- What a sign multiplies with. -/
def signFactor (negative : Bool) : Int :=
  if negative then -1 else 1

theorem natAbs_signFactor_mul (negative : Bool) (t : Int) :
    (signFactor negative * t).natAbs = t.natAbs := by
  cases negative <;> simp [signFactor]

theorem abs_signFactor_mul (negative : Bool) (q : ℚ) : |signFactor negative * q| = |q| := by
  cases negative <;> simp [signFactor]

theorem signFactor_mul_self (negative : Bool) (q : ℚ) :
    signFactor negative * (signFactor negative * q) = q := by
  cases negative <;> simp [signFactor]

/-- The exact value of a finite number. -/
def toRat (x : Binary64) : ℚ :=
  x.signedUnits / unitsPerOne

/-- Whether a number of the given sign is the one nearest to a rational number, and in the middle
between two numbers the one whose last binary digit is zero. -/
structure IsNearest (x : Binary64) (negative : Bool) (q : ℚ) : Prop where
  exists_eq_finite : ∃ units, ∃ h : Representable units, x = .finite negative units h
  abs_sub_le : ∀ y : Binary64, y.isFinite = true → |x.toRat - q| ≤ |y.toRat - q|
  lastBit_of_tie : ∀ y : Binary64, y.isFinite = true → y.toRat ≠ x.toRat →
    |y.toRat - q| = |x.toRat - q| → lastBit x.signedUnits.natAbs = 0

variable {x y : Binary64} {negative : Bool}

theorem unitsPerOne_rat_pos : (0 : ℚ) < unitsPerOne := by
  exact_mod_cast unitsPerOne_pos

theorem representable_signedUnits (h : x.isFinite = true) :
    Representable x.signedUnits.natAbs := by
  obtain ⟨negative, units, hunits, rfl⟩ := exists_eq_finite h
  have habs : (signed negative units).natAbs = units := by cases negative <;> simp [signed]
  rw [signedUnits, habs]
  exact hunits

theorem toRat_zero : zero.toRat = 0 :=
  zero_div _

theorem toRat_ofNat {n : Nat} (h : n ≤ Nat.pow 2 53) : (ofNat n).toRat = n := by
  rw [toRat, signedUnits_ofNat h, Int.cast_natCast, Nat.cast_mul]
  exact mul_div_cancel_right₀ _ unitsPerOne_rat_pos.ne'

theorem toRat_eq_iff : x.toRat = y.toRat ↔ x.signedUnits = y.signedUnits := by
  rw [toRat, toRat, div_left_inj' unitsPerOne_rat_pos.ne']
  exact_mod_cast Iff.rfl

theorem toRat_lt_iff : x.toRat < y.toRat ↔ x.signedUnits < y.signedUnits := by
  rw [toRat, toRat, div_lt_div_iff_of_pos_right unitsPerOne_rat_pos, Int.cast_lt]

/-- Comparing finite numbers compares their values. -/
theorem lt_iff_toRat_lt (hx : x.isFinite = true) (hy : y.isFinite = true) :
    x.lt y = true ↔ x.toRat < y.toRat := by
  obtain ⟨m, a, ha, rfl⟩ := exists_eq_finite hx
  obtain ⟨n, b, hb, rfl⟩ := exists_eq_finite hy
  rw [toRat_lt_iff]
  exact decide_eq_true_iff

/-- How far a number is from a ratio, counted in units. -/
theorem abs_toRat_sub (y : Binary64) (negative : Bool) (hden : 0 < den) :
    |y.toRat - signFactor negative * (num / den)| =
      (signFactor negative * y.signedUnits * den - (num * unitsPerOne : Nat) : Int).natAbs /
        (unitsPerOne * den) := by
  have hden' : (0 : ℚ) < den := by exact_mod_cast hden
  have hone := unitsPerOne_rat_pos
  rw [← abs_signFactor_mul negative, mul_sub, signFactor_mul_self, Nat.cast_natAbs, toRat]
  -- The unit is forgotten here, or else its power would be computed.
  have hsplit : ∀ unit : ℚ, 0 < unit →
      signFactor negative * ((y.signedUnits : ℚ) / unit) - num / den =
        (signFactor negative * y.signedUnits * den - num * unit) / (unit * den) := by
    intro unit hunit
    field_simp
  rw [hsplit _ hone, abs_div, abs_of_pos (mul_pos hone hden')]
  push_cast
  rfl

theorem signFactor_mul_signedUnits (negative : Bool) (units : Nat) (h : Representable units) :
    signFactor negative * (finite negative units h).signedUnits = units := by
  cases negative <;> simp [signFactor, signedUnits, signed]

theorem natAbs_signedUnits (negative : Bool) (units : Nat) (h : Representable units) :
    (finite negative units h).signedUnits.natAbs = units := by
  cases negative <;> simp [signedUnits, signed]

theorem exists_ofRatio_eq (h : (ofRatio negative num den).isFinite = true) :
    ∃ hunits, ofRatio negative num den =
      .finite negative (roundRatio (num * unitsPerOne) den) hunits := by
  unfold ofRatio ofUnits at h ⊢
  split at h
  next hlt => exact ⟨_, dif_pos hlt⟩
  next => cases h

/-- No number is nearer to a ratio than the one that it is rounded to; and of two numbers that
are equally near, it is rounded to the even one, while the other one is odd. -/
theorem abs_ofRatio_sub_le (hden : 0 < den) (hfinite : (ofRatio negative num den).isFinite = true)
    (hy : y.isFinite = true) :
    |(ofRatio negative num den).toRat - signFactor negative * (num / den)| ≤
        |y.toRat - signFactor negative * (num / den)| ∧
      (y.toRat ≠ (ofRatio negative num den).toRat →
        |y.toRat - signFactor negative * (num / den)| =
          |(ofRatio negative num den).toRat - signFactor negative * (num / den)| →
        lastBit (ofRatio negative num den).signedUnits.natAbs = 0 ∧
          lastBit y.signedUnits.natAbs = 1) := by
  obtain ⟨hunits, heq⟩ := exists_ofRatio_eq hfinite
  have hunit : (0 : ℚ) < unitsPerOne * den :=
    mul_pos unitsPerOne_rat_pos (by exact_mod_cast hden)
  have hdvd : spacing (signFactor negative * y.signedUnits).natAbs ∣
      (signFactor negative * y.signedUnits).natAbs := by
    rw [natAbs_signFactor_mul]
    exact (representable_signedUnits hy).2
  rw [heq, Ne, toRat_eq_iff, abs_toRat_sub _ _ hden, abs_toRat_sub _ _ hden,
    signFactor_mul_signedUnits, natAbs_signedUnits, ← natAbs_signFactor_mul negative y.signedUnits]
  constructor
  · rw [div_le_div_iff_of_pos_right hunit, Nat.cast_le]
    exact natAbs_roundRatio_le hden hdvd
  · intro hne htie
    rw [div_left_inj' hunit.ne', Nat.cast_inj] at htie
    refine lastBit_of_tie hden hdvd ?_ htie
    intro hsame
    rw [← signFactor_mul_signedUnits negative _ hunits] at hsame
    exact hne (mul_left_cancel₀ (by cases negative <;> decide) hsame)

/-- A ratio that is rounded to a finite number is rounded to the nearest number, and nothing else
is nearest to it. -/
theorem isNearest_iff (hden : 0 < den) (hfinite : (ofRatio negative num den).isFinite = true) :
    x.IsNearest negative (signFactor negative * (num / den)) ↔ x = ofRatio negative num den := by
  obtain ⟨hunits, heq⟩ := exists_ofRatio_eq hfinite
  constructor
  · rintro ⟨⟨units, h, rfl⟩, hle, heven⟩
    obtain ⟨hround, htie⟩ := abs_ofRatio_sub_le (y := finite negative units h) hden hfinite rfl
    have hequal := le_antisymm (hle _ hfinite) hround
    have hsame : (finite negative units h).toRat = (ofRatio negative num den).toRat := by
      by_contra hne
      have hzero := heven _ hfinite (Ne.symm hne) hequal.symm
      obtain ⟨-, hone⟩ := htie hne hequal
      omega
    rw [heq, toRat_eq_iff] at hsame
    have hunitsEq := congrArg (signFactor negative * ·) hsame
    simp only [signFactor_mul_signedUnits, Nat.cast_inj] at hunitsEq
    subst hunitsEq
    exact heq.symm
  · intro hx
    rw [hx]
    refine ⟨⟨_, hunits, heq⟩, fun y hy => (abs_ofRatio_sub_le hden hfinite hy).1, ?_⟩
    intro y hy hne htie
    exact ((abs_ofRatio_sub_le hden hfinite hy).2 hne htie).1

/-! ## The range -/

/-- The half-way point above the greatest number. -/
theorem overflowUnits_eq : (overflowUnits : ℚ) = (2 ^ 1024 - 2 ^ 970) * unitsPerOne := by
  -- The exponents are forgotten first, or else the powers would be computed.
  obtain ⟨i, j, k, hi, hj, hk, hlimit, hhalf, hle⟩ : ∃ i j k, 1024 = i ∧ 970 = j ∧ 1074 = k ∧
      2098 = i + k ∧ 2044 = j + k ∧ j ≤ i := ⟨1024, 970, 1074, rfl, rfl, rfl, rfl, rfl, by decide⟩
  delta overflowUnits unitLimit unitsPerOne
  rw [hi, hj, hk, hlimit, hhalf]
  have hpow : Nat.pow 2 (j + k) ≤ Nat.pow 2 (i + k) := Nat.pow_le_pow_right (by omega) (by omega)
  rw [Nat.cast_sub hpow]
  simp only [Nat.pow_eq, pow_add]
  push_cast
  ring

theorem isFinite_ofRatio_iff (hden : 0 < den) :
    (ofRatio negative num den).isFinite = true ↔ (num / den : ℚ) < 2 ^ 1024 - 2 ^ 970 := by
  have hden' : (0 : ℚ) < den := by exact_mod_cast hden
  rw [ofRatio, isFinite_ofUnits_iff negative hden, div_lt_iff₀ hden',
    ← mul_lt_mul_iff_left₀ unitsPerOne_rat_pos, mul_right_comm, ← overflowUnits_eq,
    ← Nat.cast_mul, ← Nat.cast_mul, Nat.cast_lt]

end Binary64

namespace Decimal

open Binary64

/-- The exact number that a decimal stands for. -/
def value (x : Decimal) : ℚ :=
  signFactor x.negative * (x.digits * 10 ^ x.exponent)

theorem value_eq_ratio (x : Decimal) :
    x.value = signFactor x.negative * (x.ratio.1 / x.ratio.2) := by
  unfold value ratio
  congr 1
  split
  next h =>
    have hexponent : x.exponent = (x.exponent.toNat : Int) := by omega
    conv => lhs; rw [hexponent]
    rw [zpow_natCast, Nat.pow_eq]
    push_cast
    rw [div_one]
  next h =>
    have hexponent : x.exponent = -((-x.exponent).toNat : Int) := by omega
    conv => lhs; rw [hexponent]
    rw [zpow_neg, zpow_natCast, ← div_eq_mul_inv, Nat.pow_eq]
    push_cast
    rfl

/-- The value of a decimal is finite if and only if the decimal lies below the half-way point
above the greatest number. -/
theorem isFinite_toBinary64_iff (x : Decimal) :
    x.toBinary64.isFinite = true ↔ |x.value| < 2 ^ 1024 - 2 ^ 970 := by
  have hnonneg : (0 : ℚ) ≤ x.ratio.1 / x.ratio.2 := by positivity
  rw [toBinary64_eq_ofRatio, isFinite_ofRatio_iff x.ratio_den_pos, value_eq_ratio,
    abs_signFactor_mul, abs_of_nonneg hnonneg]

/-- A finite value of a decimal is the nearest number, and nothing else is. -/
theorem isNearest_iff {x : Decimal} (h : x.toBinary64.isFinite = true) {y : Binary64} :
    y.IsNearest x.negative x.value ↔ y = x.toBinary64 := by
  rw [toBinary64_eq_ofRatio] at h ⊢
  rw [value_eq_ratio]
  exact Binary64.isNearest_iff x.ratio_den_pos h

end Decimal

end ColumnFormula
