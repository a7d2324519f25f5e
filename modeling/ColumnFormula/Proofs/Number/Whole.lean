import ColumnFormula.Proofs.Number.Literal

/-!
# Whole numbers

Whole numbers up to `2 ^ 53` are binary64 numbers, with either sign for zero. So a literal that
denotes one, however it is spelled, is taken for that number, and adding two whole numbers is exact
as long as their sum is not greater.
-/

namespace ColumnFormula

namespace Binary64

variable {x y : Binary64} {m n : Int}

/-- Whether a number is a whole number; a zero may have either sign. -/
def IsWhole (x : Binary64) (n : Int) : Prop :=
  x.isFinite = true ∧ x.signedUnits = n * unitsPerOne

theorem signed_zero (negative : Bool) : signed negative 0 = 0 := by
  cases negative <;> rfl

theorem signed_mul (negative : Bool) (a b : Nat) :
    signed negative (a * b) = signed negative a * b := by
  cases negative <;> simp [signed]

theorem signed_natAbs (n : Int) : signed (n < 0) n.natAbs = n := by
  unfold signed
  split
  next hneg => rw [Int.ofNat_natAbs_of_nonpos (of_decide_eq_true hneg).le, Int.neg_neg]
  next hnonneg => exact Int.natAbs_of_nonneg (by simpa using hnonneg)

theorem isWhole_iff_toRat : x.IsWhole n ↔ x.isFinite = true ∧ x.toRat = n := by
  rw [IsWhole, toRat, div_eq_iff unitsPerOne_rat_pos.ne']
  exact and_congr_right fun _ => by exact_mod_cast Iff.rfl

theorem representable_mul_unitsPerOne {n : Nat} (h : n ≤ Nat.pow 2 53) :
    Representable (n * unitsPerOne) := by
  constructor
  · -- The exponents are forgotten first, or else the powers would be computed.
    obtain ⟨k, hk, hlt⟩ : ∃ k, k < 1024 ∧ n < Nat.pow 2 k :=
      ⟨54, by decide, Nat.lt_of_le_of_lt h (by decide)⟩
    exact Nat.lt_trans (mul_unitsPerOne_lt hlt) (two_pow_lt_unitLimit (by omega))
  · delta unitsPerOne
    generalize 1074 = j
    exact spacing_dvd h

/-- The whole number with the sign of an integer. -/
theorem isWhole_finite (h : Representable (n.natAbs * unitsPerOne)) :
    (finite (n < 0) (n.natAbs * unitsPerOne) h).IsWhole n := by
  refine ⟨rfl, ?_⟩
  rw [signedUnits, signed_mul, signed_natAbs]

/-- A small whole number of units of one is not rounded. -/
theorem ofUnits_mul_unitsPerOne (negative : Bool) {n : Nat} (h : n ≤ Nat.pow 2 53) :
    ofUnits negative (n * unitsPerOne) 1 =
      .finite negative (n * unitsPerOne) (representable_mul_unitsPerOne h) := by
  apply ofUnits_eq_finite
  simpa using roundRatio_self (representable_mul_unitsPerOne h).2 Nat.one_pos

/-- Adding whole numbers is exact as long as their sum is small. -/
theorem IsWhole.add (hx : x.IsWhole m) (hy : y.IsWhole n) (h : (m + n).natAbs ≤ Nat.pow 2 53) :
    (x.add y).IsWhole (m + n) := by
  obtain ⟨hfinite, hunits⟩ := hx
  obtain ⟨hfinite', hunits'⟩ := hy
  obtain ⟨p, a, ha, rfl⟩ := exists_eq_finite hfinite
  obtain ⟨q, b, hb, rfl⟩ := exists_eq_finite hfinite'
  have hone : (0 : Int) < unitsPerOne := by exact_mod_cast unitsPerOne_pos
  have hsum : signed p a + signed q b = (m + n) * unitsPerOne := by
    rw [Int.add_mul]
    exact congrArg₂ (· + ·) hunits hunits'
  have habs : ((m + n) * unitsPerOne).natAbs = (m + n).natAbs * unitsPerOne := by
    rw [Int.natAbs_mul, Int.natAbs_natCast]
  have hsign : (m + n) * unitsPerOne < 0 ↔ m + n < 0 := by
    rw [mul_neg_iff, and_iff_left hone, or_iff_right fun h => lt_asymm hone h.2]
  simp only [Binary64.add, hsum]
  split
  next hzero =>
    have hnone : m + n = 0 := (Int.mul_eq_zero.mp hzero).resolve_right (Int.ne_of_gt hone)
    have hround := ofUnits_mul_unitsPerOne (p && q) (n := 0) (Nat.zero_le _)
    simp only [Nat.zero_mul] at hround
    rw [hround, hnone]
    refine ⟨rfl, ?_⟩
    rw [signedUnits, signed_zero, Int.zero_mul]
  next =>
    rw [habs, ofUnits_mul_unitsPerOne _ h]
    simp only [hsign]
    exact isWhole_finite _

/-- A number that is nearest to a small whole number is that whole number. -/
theorem IsNearest.isWhole {negative : Bool} (hx : x.IsNearest negative n)
    (h : n.natAbs ≤ Nat.pow 2 53) : x.IsWhole n := by
  obtain ⟨units, hunits, rfl⟩ := hx.exists_eq_finite
  obtain ⟨hfinite, hvalue⟩ :=
    isWhole_iff_toRat.mp (isWhole_finite (representable_mul_unitsPerOne h))
  have hle := hx.abs_sub_le _ hfinite
  rw [hvalue, sub_self, abs_zero] at hle
  exact isWhole_iff_toRat.mpr ⟨rfl, sub_eq_zero.mp (abs_nonpos_iff.mp hle)⟩

end Binary64

namespace Cell

/-- Whether a cell holds a literal, blanks around it or not, that denotes a rational number. -/
def Denotes (cell : RawText) (q : ℚ) : Prop :=
  ∃ literal : Literal, content? cell = some literal.chars ∧ literal.value = q

/-- What a cell denotes is the value of its content, read as a decimal. -/
theorem denotes_iff {cell : RawText} {q : ℚ} :
    Denotes cell q ↔ ∃ s decimal, content? cell = some s ∧
      Decimal.ofChars? s = some decimal ∧ decimal.value = q := by
  constructor
  · rintro ⟨literal, hcontent, hvalue⟩
    exact ⟨_, _, hcontent, literal.ofChars?_chars, literal.value_toDecimal.trans hvalue⟩
  · rintro ⟨s, decimal, hcontent, hdecimal, hvalue⟩
    obtain ⟨literal, rfl, rfl⟩ := Literal.ofChars?_eq_some_iff.mp hdecimal
    exact ⟨literal, hcontent, literal.value_toDecimal.symm.trans hvalue⟩

/-- A cell that denotes a small whole number is taken for this number. -/
theorem Denotes.isWhole {cell : RawText} {n : Int} {x : Binary64} (hcell : Denotes cell n)
    (hnumber : number? cell = some x) (h : n.natAbs ≤ Nat.pow 2 53) : x.IsWhole n := by
  obtain ⟨literal, hcontent, hvalue⟩ := hcell
  rw [number?, hcontent, Option.bind_some, parseNumber?_chars, hvalue] at hnumber
  exact hnumber.2.isWhole h

end Cell

end ColumnFormula
