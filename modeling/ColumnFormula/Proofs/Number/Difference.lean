import ColumnFormula.Proofs.Number.Nearest

/-!
# Differences

A difference is rounded like a sum, but between numbers of which the greater is at most twice the
smaller it is a number itself. So whether a difference lies below a bound is told exactly as long
as the bound is not greater than what is taken away, or nothing is taken away.
-/

namespace ColumnFormula.Binary64

/-! ## Magnitudes -/

theorem roundRatio_one {n : Nat} (h : spacing n ∣ n) : roundRatio n 1 = n := by
  simpa using roundRatio_self h Nat.one_pos

/-- Rounding does not lead below a number. -/
theorem le_roundRatio_one {m n : Nat} (h : spacing m ∣ m) (hle : m ≤ n) : m ≤ roundRatio n 1 := by
  have hnear : ((roundRatio n 1 : Int) * (1 : Nat) - n).natAbs ≤ ((m : Int) * (1 : Nat) - n).natAbs :=
    natAbs_roundRatio_le Nat.one_pos h
  omega

theorem spacing_dvd_of_le {m n : Nat} (hpos : 0 < m) (hle : m ≤ n) (h : spacing n ∣ n) :
    spacing m ∣ n := by
  have hlog : m.log2 ≤ n.log2 := by
    rw [Nat.le_log2 (by omega)]
    exact Nat.le_trans (two_pow_log2_le hpos) hle
  exact Nat.dvd_trans (Nat.pow_dvd_pow 2 (by omega)) h

/-- What is left of a number without another one that is at least half of it. -/
theorem spacing_dvd_sub {m n : Nat} (hm : spacing m ∣ m) (hn : spacing n ∣ n) (hle : m ≤ n)
    (hdouble : n ≤ 2 * m) : spacing (n - m) ∣ n - m := by
  rcases Nat.eq_zero_or_pos m with rfl | hpos
  · exact hn
  · obtain ⟨k, hk⟩ := Nat.dvd_sub (spacing_dvd_of_le hpos hle hn) hm
    have hbound : spacing m * k < spacing m * Nat.pow 2 53 := by
      rw [← hk, Nat.mul_comm]
      exact Nat.lt_of_le_of_lt (by omega) (lt_two_pow_mul_spacing m)
    rw [hk, Nat.mul_comm]
    exact spacing_dvd (Nat.le_of_lt (Nat.lt_of_mul_lt_mul_left hbound))

/-! ## Numbers -/

variable {x y bound : Binary64}

/-- A difference is rounded from the exact one, of which it has the sign. -/
theorem exists_sub_eq (hx : x.isFinite = true) (hy : y.isFinite = true)
    (hle : y.signedUnits ≤ x.signedUnits) :
    ∃ negative, (y.signedUnits < x.signedUnits → negative = false) ∧
      x.sub y = ofUnits negative (x.signedUnits - y.signedUnits).toNat 1 := by
  obtain ⟨p, a, ha, rfl⟩ := exists_eq_finite hx
  obtain ⟨q, b, hb, rfl⟩ := exists_eq_finite hy
  have hneg : signed (!q) b = -signed q b := by cases q <;> simp [signed]
  change signed q b ≤ signed p a at hle
  simp only [sub, neg, add, hneg, ← Int.sub_eq_add_neg]
  change ∃ negative, (signed q b < signed p a → negative = false) ∧
    _ = ofUnits negative (signed p a - signed q b).toNat 1
  split
  next hzero => exact ⟨_, fun hlt => absurd hzero (by omega), by rw [hzero]; rfl⟩
  next =>
    refine ⟨decide (signed p a - signed q b < 0), fun _ => decide_eq_false (by omega), ?_⟩
    rw [show (signed p a - signed q b).natAbs = (signed p a - signed q b).toNat by omega]

/-- A difference that is the magnitude of a number is that number. -/
theorem sub_of_dvd (hx : x.isFinite = true) (hy : y.isFinite = true)
    (hle : y.signedUnits ≤ x.signedUnits) {n : Nat} (hn : n = x.signedUnits - y.signedUnits)
    (h : Representable n) : (x.sub y).isFinite = true ∧ (x.sub y).signedUnits = n := by
  obtain ⟨negative, hsign, hsub⟩ := exists_sub_eq hx hy hle
  rw [← hn, Int.toNat_natCast, ofUnits_eq_finite negative h (roundRatio_one h.2)] at hsub
  rw [hsub]
  refine ⟨rfl, ?_⟩
  rcases Nat.eq_zero_or_pos n with rfl | hpos
  · cases negative <;> rfl
  · rw [hsign (by omega)]
    rfl

/-- A difference does not fall below a number that the exact one does not fall below. -/
theorem not_sub_lt (hx : x.isFinite = true) (hy : y.isFinite = true)
    (hbound : bound.isFinite = true) (hle : y.signedUnits ≤ x.signedUnits)
    (h : bound.signedUnits ≤ x.signedUnits - y.signedUnits) (hpos : 0 ≤ bound.signedUnits) :
    (x.sub y).lt bound = false := by
  have hnot : ∀ z : Binary64, z.isFinite = true → bound.signedUnits ≤ z.signedUnits →
      z.lt bound = false := by
    intro z hz hbelow
    rw [Bool.eq_false_iff, Ne, lt_iff_toRat_lt hz hbound, toRat_lt_iff]
    omega
  rcases Int.lt_or_eq_of_le hle with hlt | heq
  · obtain ⟨negative, hsign, hsub⟩ := exists_sub_eq hx hy hle
    rw [hsub, hsign hlt, ofUnits]
    split
    next =>
      have hround : bound.signedUnits.natAbs ≤
          roundRatio (x.signedUnits - y.signedUnits).toNat 1 :=
        le_roundRatio_one (representable_signedUnits hbound).2 (by omega)
      refine hnot _ rfl ?_
      simp only [signedUnits, signed, Bool.false_eq_true, if_false]
      exact Int.le_trans Int.le_natAbs (Int.ofNat_le.mpr hround)
    next =>
      obtain ⟨p, n, hn, rfl⟩ := exists_eq_finite hbound
      rfl
  · obtain ⟨hfinite, hunits⟩ :=
      sub_of_dvd hx hy hle (n := 0) (by omega) ⟨by decide +kernel, Nat.dvd_zero _⟩
    exact hnot _ hfinite (by omega)

theorem toRat_nonneg_iff : 0 ≤ x.toRat ↔ 0 ≤ x.signedUnits := by
  rw [toRat, le_div_iff₀ unitsPerOne_rat_pos, zero_mul, Int.cast_nonneg_iff]

theorem toRat_sub_lt_iff :
    x.toRat - y.toRat < bound.toRat ↔ x.signedUnits - y.signedUnits < bound.signedUnits := by
  rw [toRat, toRat, toRat, ← sub_div, div_lt_div_iff_of_pos_right unitsPerOne_rat_pos]
  exact_mod_cast Iff.rfl

/-- A difference from nothing, or from a number that the bound is not greater than, lies below the
bound exactly if the exact difference does. -/
theorem sub_lt_iff (hx : x.isFinite = true) (hy : y.isFinite = true)
    (hbound : bound.isFinite = true) (hle : y.toRat ≤ x.toRat) (hpos : 0 ≤ bound.toRat)
    (htaken : y.toRat = 0 ∨ bound.toRat ≤ y.toRat) :
    (x.sub y).lt bound = true ↔ x.toRat - y.toRat < bound.toRat := by
  have hle' : y.signedUnits ≤ x.signedUnits := not_lt.mp (mt toRat_lt_iff.mpr (not_lt.mpr hle))
  have hpos' : 0 ≤ bound.signedUnits := toRat_nonneg_iff.mp hpos
  have hy' : 0 ≤ y.signedUnits := by
    rw [← toRat_nonneg_iff]
    rcases htaken with hzero | hge
    · exact hzero.ge
    · exact hpos.trans hge
  rw [toRat_sub_lt_iff]
  constructor
  · intro hlt
    by_contra hnot
    rw [not_sub_lt hx hy hbound hle' (not_lt.mp hnot) hpos'] at hlt
    cases hlt
  · intro hlt
    -- Below the bound nothing is rounded: the greater number is at most twice the smaller.
    have hdvd : spacing (x.signedUnits.natAbs - y.signedUnits.natAbs) ∣
        x.signedUnits.natAbs - y.signedUnits.natAbs := by
      rcases htaken with hzero | hge
      · have hunits : y.signedUnits = 0 := by
          rw [toRat, div_eq_zero_iff, or_iff_left unitsPerOne_rat_pos.ne'] at hzero
          exact_mod_cast hzero
        rw [hunits, Int.natAbs_zero, Nat.sub_zero]
        exact (representable_signedUnits hx).2
      · have hge' := not_lt.mp (mt toRat_lt_iff.mpr (not_lt.mpr hge))
        exact spacing_dvd_sub (representable_signedUnits hy).2 (representable_signedUnits hx).2
          (by omega) (by omega)
    have hrange : x.signedUnits.natAbs - y.signedUnits.natAbs < unitLimit :=
      Nat.lt_of_le_of_lt (Nat.sub_le _ _) (representable_signedUnits hx).1
    obtain ⟨hfinite, hunits⟩ := sub_of_dvd hx hy hle' (by omega) ⟨hrange, hdvd⟩
    rw [lt_iff_toRat_lt hfinite hbound, toRat_lt_iff]
    omega

end ColumnFormula.Binary64
