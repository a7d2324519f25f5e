import ColumnFormula.Number.Binary64
import ColumnFormula.Number.Shortest

/-!
# What rounding comes to

Rounding depends on the value of a ratio only and never carries it past a power of two; so
whole numbers of a machine word, which are far below the overflow threshold, have finite
binary64 values. The ratios that are rounded to a number are those of an interval around it,
and this is the interval that shortest decimals are looked for in.
-/

namespace ColumnFormula.Binary64

/-! ## Powers of two -/

theorem roundRatio_le_two_pow {num den k : Nat} (h : num / den < Nat.pow 2 k) :
    roundRatio num den ≤ Nat.pow 2 k := by
  simp only [Nat.pow_eq] at *
  have hpow : ∀ n, 0 < 2 ^ n := Nat.two_pow_pos
  have hlog : (num / den).log2 - 52 ≤ k := by
    rcases Nat.eq_zero_or_pos (num / den) with hzero | hpos
    · simp [hzero]
    · have hlt : (num / den).log2 < k := (Nat.log2_lt (by omega)).mpr h
      omega
  -- The spacing divides the power, which is so many spacings.
  have hsplit : 2 ^ k = 2 ^ (k - ((num / den).log2 - 52)) * 2 ^ ((num / den).log2 - 52) := by
    rw [← Nat.pow_add, Nat.sub_add_cancel hlog]
  have hround : roundHalfEven num (den * spacing (num / den)) ≤
      2 ^ (k - ((num / den).log2 - 52)) := by
    apply roundHalfEven_le
    rw [← Nat.div_div_eq_div_mul]
    apply Nat.div_lt_of_lt_mul
    rw [spacing, Nat.pow_eq, Nat.mul_comm, ← hsplit]
    exact h
  rw [hsplit]
  exact Nat.mul_le_mul_right _ hround

theorem unitsPerOne_pos : 0 < unitsPerOne := by
  -- The exponent is forgotten first, or else the power would be computed.
  delta unitsPerOne
  generalize 1074 = k
  exact Nat.two_pow_pos k

theorem two_pow_mul_unitsPerOne (k : Nat) :
    Nat.pow 2 k * unitsPerOne = Nat.pow 2 (k + 1074) := by
  delta unitsPerOne
  generalize 1074 = j
  exact (Nat.pow_add 2 k j).symm

/-- So many units of one are less than a power of two. -/
theorem mul_unitsPerOne_lt {n k : Nat} (h : n < Nat.pow 2 k) :
    n * unitsPerOne < Nat.pow 2 (k + 1074) := by
  rw [← two_pow_mul_unitsPerOne]
  exact Nat.mul_lt_mul_of_pos_right h unitsPerOne_pos

theorem unitLimit_le_two_pow {k : Nat} (h : 2098 ≤ k) : unitLimit ≤ Nat.pow 2 k := by
  delta unitLimit
  generalize 2098 = j at h
  exact Nat.pow_le_pow_right (by omega) h

theorem two_pow_lt_unitLimit {k : Nat} (h : k < 2098) : Nat.pow 2 k < unitLimit := by
  delta unitLimit
  generalize 2098 = j at h
  exact Nat.pow_lt_pow_right (by omega) h

theorem isFinite_ofNat {n k : Nat} (h : n < Nat.pow 2 k) (hk : k < 1024) :
    (ofNat n).isFinite = true := by
  have hunits : n * unitsPerOne / 1 < Nat.pow 2 (k + 1074) := by
    rw [Nat.div_one]
    exact mul_unitsPerOne_lt h
  have hlt : roundRatio (n * unitsPerOne) 1 < unitLimit :=
    Nat.lt_of_le_of_lt (roundRatio_le_two_pow hunits) (two_pow_lt_unitLimit (by omega))
  rw [ofNat, ofRatio, ofUnits, dif_pos hlt]
  rfl

/-! ## The value of a ratio -/

theorem roundHalfEven_mul {num den c : Nat} (hc : 0 < c) :
    roundHalfEven (num * c) (den * c) = roundHalfEven num den := by
  unfold roundHalfEven
  rw [Nat.mul_div_mul_right _ _ hc, Nat.mul_mod_mul_right, ← Nat.mul_assoc]
  simp only [Nat.mul_lt_mul_right hc]

theorem roundRatio_mul {num den c : Nat} (hc : 0 < c) :
    roundRatio (num * c) (den * c) = roundRatio num den := by
  simp only [roundRatio, Nat.mul_div_mul_right num den hc,
    Nat.mul_right_comm den c (spacing (num / den)), roundHalfEven_mul hc]

theorem ofRatio_mul (negative : Bool) {num den c : Nat} (hc : 0 < c) :
    ofRatio negative (num * c) (den * c) = ofRatio negative num den := by
  simp only [ofRatio, ofUnits, Nat.mul_right_comm num c unitsPerOne, roundRatio_mul hc]

/-! ## The interval of a number -/

/-- A ratio is rounded to a whole number that is at most one half away, if an exact half
goes to an even number. -/
theorem roundHalfEven_eq {num den m : Nat} (hden : 0 < den)
    (hlow : 2 * (m * den) ≤ 2 * num + den) (hhigh : 2 * num ≤ 2 * (m * den) + den)
    (htie : m % 2 = 0 ∨ (2 * (m * den) < 2 * num + den ∧ 2 * num < 2 * (m * den) + den)) :
    roundHalfEven num den = m := by
  have hsplit : num / den * den + num % den = num := Nat.div_add_mod' num den
  have hmod : num % den < den := Nat.mod_lt _ hden
  have hle : num / den ≤ m := by
    rw [← Nat.lt_succ_iff, Nat.div_lt_iff_lt_mul hden, Nat.succ_mul]
    omega
  have hge : m ≤ num / den + 1 := by
    rw [← Nat.lt_succ_iff, ← Nat.mul_lt_mul_right hden, Nat.succ_mul, Nat.succ_mul]
    omega
  -- So the number is the quotient or the one above it.
  unfold roundHalfEven
  rcases Nat.lt_or_ge (num / den) m with hlt | hge'
  · obtain rfl : m = num / den + 1 := by omega
    rw [Nat.succ_mul] at *
    grind
  · obtain rfl : m = num / den := by omega
    grind

theorem spacing_pos (n : Nat) : 0 < spacing n :=
  Nat.two_pow_pos _

/-- What `readsBack` says: the ratio is at most half a spacing away from the number, below a
power of two at most a quarter, and nearer than half a spacing unless the number is even. -/
theorem bounds_of_readsBack {units num den : Nat} (h : readsBack units num den = true) :
    4 * (units * den) ≤ 4 * num + 2 * (spacing units * den) ∧
      4 * num ≤ 4 * (units * den) + 2 * (spacing units * den) ∧
      (units = Nat.pow 2 units.log2 ∧ 53 ≤ units.log2 →
        4 * (units * den) ≤ 4 * num + spacing units * den) ∧
      (units / spacing units % 2 = 0 ∨
        (4 * (units * den) < 4 * num + 2 * (spacing units * den) ∧
          4 * num < 4 * (units * den) + 2 * (spacing units * den))) := by
  have hhigh : quadrupleHigh units * den = 4 * (units * den) + 2 * (spacing units * den) := by
    rw [quadrupleHigh, Nat.add_mul, Nat.mul_assoc, Nat.mul_assoc]
  unfold readsBack at h
  simp only [hhigh] at h
  by_cases hpower : units = Nat.pow 2 units.log2 ∧ 53 ≤ units.log2
  · have hlow : quadrupleLow units * den = 4 * (units * den) - spacing units * den := by
      rw [quadrupleLow, if_pos hpower, Nat.sub_mul, Nat.mul_assoc]
    rw [hlow] at h
    grind
  · have hlow : quadrupleLow units * den = 4 * (units * den) - 2 * (spacing units * den) := by
      rw [quadrupleLow, if_neg hpower, Nat.sub_mul, Nat.mul_assoc, Nat.mul_assoc]
    rw [hlow] at h
    grind

/-- Where numbers are spaced as they are at `units`, a ratio at most half a spacing away is
rounded to `units`. -/
theorem roundRatio_eq {units num den : Nat} (hdvd : spacing units ∣ units) (hden : 0 < den)
    (hspacing : spacing (num / den) = spacing units)
    (hlow : 4 * (units * den) ≤ 4 * num + 2 * (spacing units * den))
    (hhigh : 4 * num ≤ 4 * (units * den) + 2 * (spacing units * den))
    (htie : units / spacing units % 2 = 0 ∨
      (4 * (units * den) < 4 * num + 2 * (spacing units * den) ∧
        4 * num < 4 * (units * den) + 2 * (spacing units * den))) :
    roundRatio num den = units := by
  have hcancel : units / spacing units * spacing units = units := Nat.div_mul_cancel hdvd
  have hprod : units / spacing units * (den * spacing units) = units * den := by
    rw [Nat.mul_comm den, ← Nat.mul_assoc, hcancel]
  have hcomm : den * spacing units = spacing units * den := Nat.mul_comm _ _
  rw [roundRatio]
  simp only [hspacing]
  rw [roundHalfEven_eq (m := units / spacing units) (Nat.mul_pos hden (spacing_pos units)),
    hcancel]
  all_goals
    rw [hprod, hcomm]
    omega

/-- Below a power of two the numbers lie twice as close as above it. -/
theorem spacing_of_lt_two_pow {units q : Nat}
    (hpower : units = Nat.pow 2 units.log2 ∧ 53 ≤ units.log2) (hlow : units ≤ 2 * q)
    (hlt : q < units) : spacing units = 2 * spacing q ∧ units = Nat.pow 2 53 * spacing q := by
  obtain ⟨hunits, hlog⟩ := hpower
  obtain ⟨k, hk⟩ : ∃ k, units.log2 = k + 53 := ⟨_, (Nat.sub_add_cancel hlog).symm⟩
  rw [hk, Nat.pow_eq] at hunits
  have hq : q.log2 = k + 52 := by
    rw [Nat.log2_eq_iff (by omega)]
    have hdouble : 2 ^ (k + 53) = 2 * 2 ^ (k + 52) := Nat.pow_succ'
    constructor <;> omega
  simp only [spacing, hk, hq, Nat.pow_eq, Nat.add_sub_cancel,
    show k + 53 - 52 = k + 1 by omega]
  constructor
  · exact Nat.pow_succ'
  · rw [hunits, Nat.pow_add, Nat.mul_comm]

/-- A ratio at most a quarter of the spacing below a power of two is rounded to it. -/
theorem roundRatio_eq_of_lt_two_pow {units num den : Nat} (hden : 0 < den)
    (hpower : units = Nat.pow 2 units.log2 ∧ 53 ≤ units.log2) (hnear : units ≤ 2 * (num / den))
    (hlt : num / den < units) (hlow : 4 * (units * den) ≤ 4 * num + spacing units * den) :
    roundRatio num den = units := by
  obtain ⟨hdouble, hunits⟩ := spacing_of_lt_two_pow hpower hnear hlt
  have hnum : num < units * den := (Nat.div_lt_iff_lt_mul hden).mp hlt
  have hprod : Nat.pow 2 53 * (den * spacing (num / den)) = units * den := by
    conv => rhs; rw [hunits]
    rw [Nat.mul_comm den, Nat.mul_assoc]
  have hcomm : den * spacing (num / den) = spacing (num / den) * den := Nat.mul_comm _ _
  rw [hdouble, Nat.mul_assoc] at hlow
  have hround : roundHalfEven num (den * spacing (num / den)) = Nat.pow 2 53 := by
    apply roundHalfEven_eq (Nat.mul_pos hden (spacing_pos _))
    · rw [hprod, hcomm]
      omega
    · rw [hprod]
      omega
    · exact .inl (by decide)
  rw [roundRatio, hround]
  exact hunits.symm

theorem two_pow_log2_le {n : Nat} (hpos : 0 < n) : Nat.pow 2 n.log2 ≤ n :=
  Nat.log2_self_le (by omega)

theorem spacing_le {n : Nat} (hpos : 0 < n) : spacing n ≤ n :=
  Nat.le_trans (Nat.pow_le_pow_right (by omega) (Nat.sub_le _ _)) (two_pow_log2_le hpos)

theorem spacing_congr {m n : Nat} (h : m.log2 = n.log2) : spacing m = spacing n := by
  rw [spacing, h, spacing]

theorem add_le_of_dvd {m a b : Nat} (ha : m ∣ a) (hb : m ∣ b) (hlt : a < b) : a + m ≤ b := by
  have hle : m ≤ b - a := Nat.le_of_dvd (by omega) (Nat.dvd_sub hb ha)
  omega

theorem spacing_dvd_two_pow {n k : Nat} (h : n.log2 ≤ k) : spacing n ∣ Nat.pow 2 k :=
  Nat.pow_dvd_pow 2 (by omega)

/-- The spacing is the same on the way to the next power of two. -/
theorem spacing_of_two_pow_le {units num den : Nat} (hdvd : spacing units ∣ units)
    (hden : 0 < den) (hhigh : 4 * num ≤ 4 * (units * den) + 2 * (spacing units * den))
    (hge : Nat.pow 2 units.log2 ≤ num / den) : spacing (num / den) = spacing units := by
  have hpow : 0 < Nat.pow 2 units.log2 := Nat.two_pow_pos _
  have hnext : units + spacing units ≤ Nat.pow 2 (units.log2 + 1) :=
    add_le_of_dvd hdvd (spacing_dvd_two_pow (by omega)) Nat.lt_log2_self
  have hprod : (units + spacing units) * den ≤ Nat.pow 2 (units.log2 + 1) * den :=
    Nat.mul_le_mul_right den hnext
  have hspacing : 0 < spacing units * den := Nat.mul_pos (spacing_pos units) hden
  rw [Nat.add_mul] at hprod
  apply spacing_congr
  rw [Nat.log2_eq_iff (by omega)]
  refine ⟨hge, (Nat.div_lt_iff_lt_mul hden).mpr ?_⟩
  change num < Nat.pow 2 (units.log2 + 1) * den
  omega

/-- Only a power of two has a ratio below it that is rounded to it and to which another power
of two is next. -/
theorem eq_two_pow_of_lt {units num den : Nat} (hpos : 0 < units) (hdvd : spacing units ∣ units)
    (hden : 0 < den) (hlow : 4 * (units * den) ≤ 4 * num + 2 * (spacing units * den))
    (hlt : num / den < Nat.pow 2 units.log2) : units = Nat.pow 2 units.log2 := by
  have hnum : num < Nat.pow 2 units.log2 * den := (Nat.div_lt_iff_lt_mul hden).mp hlt
  rcases Nat.eq_or_lt_of_le (two_pow_log2_le hpos) with heq | hgreater
  · exact heq.symm
  · have hle : Nat.pow 2 units.log2 + spacing units ≤ units :=
      add_le_of_dvd (spacing_dvd_two_pow (Nat.le_refl _)) hdvd hgreater
    have hprod : (Nat.pow 2 units.log2 + spacing units) * den ≤ units * den :=
      Nat.mul_le_mul_right den hle
    rw [Nat.add_mul] at hprod
    omega

theorem le_double_div {units num den : Nat} (hpos : 0 < units) (hden : 0 < den)
    (hpower : units = Nat.pow 2 units.log2 ∧ 53 ≤ units.log2)
    (hlow : 4 * (units * den) ≤ 4 * num + spacing units * den) : units ≤ 2 * (num / den) := by
  have hspacing : spacing units * den ≤ units * den := Nat.mul_le_mul_right den (spacing_le hpos)
  -- The power is even, so half of it is a whole number that the quotient cannot fall below.
  have heven : units = 2 * (units / 2) := by
    have hdvd : 2 ∣ units := by
      rw [hpower.1]
      exact Nat.pow_dvd_pow (m := 1) 2 (by omega)
    omega
  have hhalf : units * den = 2 * (units / 2 * den) := by
    rw [← Nat.mul_assoc, ← heven]
  have hle : units / 2 ≤ num / den := by
    rw [Nat.le_div_iff_mul_le hden]
    omega
  omega

/-- What `readsBack` says of a ratio is that it is rounded to the number. -/
theorem roundRatio_of_readsBack {units num den : Nat} (hpos : 0 < units)
    (hdvd : spacing units ∣ units) (hden : 0 < den) (h : readsBack units num den = true) :
    roundRatio num den = units := by
  obtain ⟨hlow, hhigh, hpower, htie⟩ := bounds_of_readsBack h
  rcases Nat.lt_or_ge (num / den) (Nat.pow 2 units.log2) with hlt | hge
  · have hunits := eq_two_pow_of_lt hpos hdvd hden hlow hlt
    rcases Nat.lt_or_ge units.log2 53 with hsmall | hlarge
    · -- Up to 53 binary digits the spacing is one on both sides of the power.
      have hlog : (num / den).log2 ≤ 52 := by
        rcases Nat.eq_zero_or_pos (num / den) with hzero | hquot
        · simp [hzero]
        · have hlt' := (Nat.log2_lt (by omega)).mpr hlt
          omega
      have hspacing : spacing (num / den) = spacing units := by
        rw [spacing, spacing, Nat.sub_eq_zero_of_le hlog, Nat.sub_eq_zero_of_le (by omega)]
      exact roundRatio_eq hdvd hden hspacing hlow hhigh htie
    · have hclose := hpower ⟨hunits, hlarge⟩
      exact roundRatio_eq_of_lt_two_pow hden ⟨hunits, hlarge⟩
        (le_double_div hpos hden ⟨hunits, hlarge⟩ hclose) (hunits ▸ hlt) hclose
  · exact roundRatio_eq hdvd hden (spacing_of_two_pow_le hdvd hden hhigh hge) hlow hhigh htie

end ColumnFormula.Binary64
