/-!
# Rounding a ratio to 53 binary places

A finite binary64 magnitude is a whole number of units of 2^-1074, and `Representable` says
which whole numbers occur: those below the overflow threshold whose binary digits beyond
the first 53 are zero. `roundRatio` takes a ratio of units to the nearest number of that
form, a tie to the even side, and its result is representable unless it overflows.
-/

namespace ColumnFormula.Binary64

/-- The first power of two, in units, that is out of range. -/
def unitLimit : Nat := Nat.pow 2 2098

/-- The distance between `units` and the next greater number of 53 significant binary
digits. -/
def spacing (units : Nat) : Nat := Nat.pow 2 (units.log2 - 52)

/-- A magnitude in range with at most 53 significant binary digits. -/
def Representable (units : Nat) : Prop :=
  units < unitLimit ∧ spacing units ∣ units

instance (units : Nat) : Decidable (Representable units) :=
  inferInstanceAs (Decidable (_ ∧ _))

/-- The whole number nearest to `num / den`; of two, the even one. -/
def roundHalfEven (num den : Nat) : Nat :=
  let low := num / den
  let twice := 2 * (num % den)
  if twice < den then low
  else if den < twice then low + 1
  else if low % 2 = 0 then low else low + 1

/-- The number nearest to `num / den` with at most 53 significant binary digits, whether or
not it is in range. -/
def roundRatio (num den : Nat) : Nat :=
  let step := spacing (num / den)
  roundHalfEven num (den * step) * step

theorem roundHalfEven_le {num den bound : Nat} (h : num / den < bound) :
    roundHalfEven num den ≤ bound := by
  unfold roundHalfEven
  grind

theorem lt_two_pow_mul_spacing (n : Nat) : n < Nat.pow 2 53 * spacing n := by
  have h : n < 2 ^ (n.log2 + 1) := Nat.lt_log2_self
  have hle : 2 ^ (n.log2 + 1) ≤ 2 ^ (53 + (n.log2 - 52)) :=
    Nat.pow_le_pow_right (by decide) (by omega)
  simp only [spacing, Nat.pow_eq, ← Nat.pow_add]
  omega

/-- A number of at most 53 binary digits keeps that many when zeros follow it. -/
theorem spacing_dvd {m e : Nat} (h : m ≤ Nat.pow 2 53) :
    spacing (m * Nat.pow 2 e) ∣ m * Nat.pow 2 e := by
  simp only [spacing, Nat.pow_eq] at *
  have hpow : ∀ k, 0 < 2 ^ k := Nat.two_pow_pos
  rcases Nat.eq_zero_or_pos m with rfl | hpos
  · simp
  have hne : m * 2 ^ e ≠ 0 := Nat.mul_ne_zero (by omega) (by have := hpow e; omega)
  rcases Nat.lt_or_ge m (2 ^ 53) with hlt | hge
  · have hlog : (m * 2 ^ e).log2 < 53 + e := by
      rw [Nat.log2_lt hne, Nat.pow_add]
      exact Nat.mul_lt_mul_of_pos_right hlt (hpow e)
    exact Nat.dvd_mul_left_of_dvd (Nat.pow_dvd_pow 2 (by omega)) m
  · obtain rfl : m = 2 ^ 53 := by omega
    rw [← Nat.pow_add, Nat.log2_two_pow]
    exact Nat.pow_dvd_pow 2 (by omega)

theorem spacing_roundRatio_dvd (num den : Nat) :
    spacing (roundRatio num den) ∣ roundRatio num den := by
  refine spacing_dvd (roundHalfEven_le ?_)
  rw [← Nat.div_div_eq_div_mul]
  exact Nat.div_lt_of_lt_mul (Nat.mul_comm _ _ ▸ lt_two_pow_mul_spacing (num / den))

end ColumnFormula.Binary64
