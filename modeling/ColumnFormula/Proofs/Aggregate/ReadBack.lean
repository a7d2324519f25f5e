import ColumnFormula.Aggregate
import ColumnFormula.Proofs.Number.Length
import ColumnFormula.Proofs.Number.Literal
import ColumnFormula.Proofs.Number.Numeral

/-!
# Results read back

A result appears in a cell either as a whole number or with its shortest digits. Both texts are
literals, and they are taken for the number that the result is; only the sign of a zero is lost
where whole numbers are shown as such. So results that differ as numbers never look alike.
-/

namespace ColumnFormula

/-! ## The texts of numbers as literals -/

namespace Literal

/-- A minus sign, or none. -/
def minusIf (negative : Bool) : Sign :=
  if negative then .minus else .none

theorem chars_minusIf (negative : Bool) :
    (minusIf negative).chars = if negative then ['-'] else [] := by
  cases negative <;> rfl

theorem isNegative_minusIf (negative : Bool) : (minusIf negative).isNegative = negative := by
  cases negative <;> rfl

/-- An integer as a literal. -/
def ofInt (n : Int) : Literal where
  sign := minusIf (n < 0)
  mantissa := .whole ⟨Nat.toDigits 10 n.natAbs, Nat.toDigits_ne_nil,
    fun _ => Decimal.isDigit_of_mem_toDigits⟩
  exponent := none

theorem chars_ofInt (n : Int) : (ofInt n).chars = (toString n).toList := by
  rw [Decimal.toList_toString]
  simp [chars, ofInt, chars_minusIf, Mantissa.before, Mantissa.pointChars, exponentChars]

theorem toDecimal_ofInt (n : Int) : (ofInt n).toDecimal = ⟨n < 0, n.natAbs, 0⟩ := by
  simp [toDecimal, ofInt, isNegative_minusIf, Mantissa.before, Mantissa.behind, exponentValue,
    Decimal.ofParts]

/-- An exponent with its sign. -/
theorem exists_exponentText (exponent : Int) :
    ∃ written : Exponent, written.chars = 'e' :: Binary64.exponentText exponent ∧
      written.value = exponent := by
  obtain ⟨ds, htext, hne, hdigits, hvalue⟩ := Binary64.exponentText_eq exponent
  refine ⟨⟨false, if exponent < 0 then .minus else .plus, ⟨ds, hne, hdigits⟩⟩, ?_, ?_⟩
  · rw [htext]
    by_cases hnegative : exponent < 0 <;> simp [Exponent.chars, Sign.chars, hnegative]
  · simp only [Exponent.value, hvalue]
    by_cases hnegative : exponent < 0
    · simp only [hnegative, if_true, Sign.isNegative, Binary64.signFactor]
      omega
    · simp only [hnegative, if_false, Sign.isNegative, Binary64.signFactor, Bool.false_eq_true]
      omega

/-- A numeral with its sign is a literal. -/
theorem exists_numeral (negative : Bool) (n : Numeral) :
    ∃ literal : Literal,
      literal.chars = (if negative then ['-'] else []) ++ n.chars ∧
        literal.toDecimal = n.toDecimal negative := by
  obtain ⟨exponent, hchars, hvalue⟩ : ∃ exponent, exponentChars exponent = n.exponentChars ∧
      exponentValue exponent = n.exponent.getD 0 := by
    unfold Numeral.exponentChars
    cases n.exponent with
    | none => exact ⟨none, rfl, rfl⟩
    | some exponent =>
        obtain ⟨written, hchars, hvalue⟩ := exists_exponentText exponent
        exact ⟨some written, hchars, hvalue⟩
  obtain ⟨mantissa, hbefore, hbehind, hpoint⟩ : ∃ mantissa : Mantissa,
      mantissa.before = n.whole ∧ mantissa.behind = n.fraction ∧
        mantissa.pointChars = n.fractionChars := by
    unfold Numeral.fractionChars
    split
    next hnil => exact ⟨.whole ⟨n.whole, n.whole_ne_nil, n.whole_digits⟩, rfl, hnil.symm, rfl⟩
    next hne =>
      exact ⟨.pointed ⟨n.whole, n.whole_ne_nil, n.whole_digits⟩
        (some ⟨n.fraction, hne, n.fraction_digits⟩), rfl, rfl, rfl⟩
  refine ⟨⟨minusIf negative, mantissa, exponent⟩, ?_, ?_⟩
  · rw [chars, chars_minusIf, hbefore, hpoint, hchars, Numeral.chars, List.append_assoc]
  · rw [toDecimal, isNegative_minusIf, hbefore, hbehind, hvalue, Numeral.toDecimal]

end Literal

/-! ## The numbers that they are taken for -/

open Binary64

namespace Cell

/-- The text of a finite number is taken for this number. -/
theorem parseNumber?_toText (negative : Bool) {units : Nat} (h : Representable units) :
    parseNumber? (finite negative units h).toText.toList = some (.finite negative units h) := by
  obtain ⟨n, hchars, hvalue⟩ := Numeral.exists_chars_magnitudeText h
  obtain ⟨literal, hliteral, hdecimal⟩ := Literal.exists_numeral negative n
  have htext : (finite negative units h).toText.toList = literal.chars := by
    rw [toText, String.toList_ofList, hliteral, hchars]
    rfl
  rw [htext, parseNumber?_eq_some_iff]
  refine ⟨_, literal.ofChars?_chars, ?_, ?_⟩
  · rw [hdecimal, hvalue, isFinite_finite]
  · rw [hdecimal, hvalue]

/-- The text of a whole number is taken for this number, if it has one. -/
theorem parseNumber?_toString (n : Int) (h : Representable (n.natAbs * unitsPerOne)) :
    parseNumber? (toString n).toList = some (.finite (n < 0) (n.natAbs * unitsPerOne) h) := by
  have hvalue : (Literal.ofInt n).toDecimal.toBinary64 =
      .finite (n < 0) (n.natAbs * unitsPerOne) h := by
    rw [Literal.toDecimal_ofInt, Decimal.toBinary64_eq_ofRatio]
    refine ofUnits_eq_finite _ h ?_
    have hratio : (Decimal.mk (decide (n < 0)) n.natAbs 0).ratio = (n.natAbs, 1) := by
      simp [Decimal.ratio]
    rw [hratio]
    exact (congrArg (roundRatio · 1) (Nat.mul_one _).symm).trans (roundRatio_self h.2 Nat.one_pos)
  rw [← Literal.chars_ofInt, parseNumber?_eq_some_iff]
  exact ⟨_, (Literal.ofInt n).ofChars?_chars, by rw [hvalue, isFinite_finite], hvalue⟩

end Cell

namespace Aggregate

variable {aggregate : Aggregate} {integerResults : Bool}

/-- What a finite result is read back as: a zero has no sign if whole numbers are shown as such. -/
def shownValue (integerResults : Bool) (x : Binary64) : Binary64 :=
  if integerResults && x.isZero then .zero else x

theorem display_finite (hkind : aggregate ≠ .count) (negative : Bool) (units : Nat)
    (h : Representable units) :
    aggregate.display integerResults (.finite negative units h) =
      .ok (if integerResults && (finite negative units h).isInteger && isSmall units then
        toString (truncate negative units) else (finite negative units h).toText) := by
  cases aggregate with
  | count => exact absurd rfl hkind
  | _ =>
      unfold display
      dsimp only
      split <;> rfl

/-- Whole numbers are shown as integers, which are read back. -/
theorem parseNumber?_truncate (negative : Bool) {units : Nat} (h : Representable units)
    (hinteger : (finite negative units h).isInteger = true) :
    Cell.parseNumber? (toString (truncate negative units)).toList =
      some (shownValue true (finite negative units h)) := by
  have hunits : (truncate negative units).natAbs * unitsPerOne = units := by
    rw [natAbs_truncate]
    exact Nat.div_mul_cancel (Nat.dvd_of_mod_eq_zero (beq_iff_eq.mp hinteger))
  have hrepresentable : Representable ((truncate negative units).natAbs * unitsPerOne) := by
    rw [hunits]
    exact h
  rw [Cell.parseNumber?_toString _ hrepresentable, Option.some_inj]
  -- Integers have one zero only, so a zero is read back without its sign.
  rcases Nat.eq_zero_or_pos units with rfl | hpos
  · have hzero : truncate negative 0 = 0 := by cases negative <;> simp [truncate, signed]
    simp [shownValue, isZero, zero, hzero]
  · have hquot : 0 < units / unitsPerOne := by
      rw [← natAbs_truncate negative]
      exact Nat.pos_of_mul_pos_right (hunits ▸ hpos)
    have hsigned : ∀ q, 0 < q → decide (signed negative q < 0) = negative := by
      intro q hq
      cases negative <;> simp [signed, hq]
    have hsign : decide (truncate negative units < 0) = negative := hsigned _ hquot
    have hne : (finite negative units h).isZero = false := by
      simp [isZero]
      omega
    simp [shownValue, hne, hsign, hunits]

/-- A zero is a whole number, and a small one. -/
theorem isWhole_of_isZero {negative : Bool} {units : Nat} {h : Representable units}
    (hzero : (finite negative units h).isZero = true) :
    ((finite negative units h).isInteger && isSmall units) = true := by
  obtain rfl : units = 0 := beq_iff_eq.mp hzero
  have hsmall : 0 < Nat.pow 2 53 * unitsPerOne := Nat.mul_pos (Nat.two_pow_pos 53) unitsPerOne_pos
  simp only [isInteger, isSmall, Nat.zero_mod, beq_self_eq_true, hsmall, decide_true, Bool.and_true]

/-- What a finite result shows is taken for the result. -/
theorem exists_display_readBack (hkind : aggregate ≠ .count) (integerResults : Bool) {x : Binary64}
    (hx : x.isFinite = true) :
    ∃ text, aggregate.display integerResults x = .ok text ∧
      Cell.parseNumber? text.toList = some (shownValue integerResults x) := by
  obtain ⟨negative, units, h, rfl⟩ := exists_eq_finite hx
  refine ⟨_, display_finite hkind negative units h, ?_⟩
  split
  next hwhole =>
    simp only [Bool.and_eq_true] at hwhole
    rw [hwhole.1.1]
    exact parseNumber?_truncate negative h hwhole.1.2
  next hwhole =>
    have hsigned : ¬ (integerResults && (finite negative units h).isZero) = true := by
      rw [Bool.and_eq_true]
      rintro ⟨hinteger, hzero⟩
      rw [Bool.and_assoc, hinteger, isWhole_of_isZero hzero] at hwhole
      exact hwhole rfl
    rw [Cell.parseNumber?_toText, shownValue, if_neg hsigned]

theorem toRat_of_isZero {x : Binary64} (h : x.isZero = true) : x.toRat = 0 := by
  cases x with
  | finite negative units hunits =>
      obtain rfl : units = 0 := beq_iff_eq.mp h
      have hsigned : (finite negative 0 hunits).signedUnits = 0 := by cases negative <;> rfl
      rw [toRat, hsigned, Int.cast_zero, zero_div]
  | _ => cases h

theorem shownValue_cases (integerResults : Bool) (x : Binary64) :
    shownValue integerResults x = x ∨
      (integerResults = true ∧ x.isZero = true ∧ shownValue integerResults x = .zero) := by
  unfold shownValue
  split
  next h => exact .inr ⟨(Bool.and_eq_true _ _ ▸ h).1, (Bool.and_eq_true _ _ ▸ h).2, rfl⟩
  next => exact .inl rfl

theorem toRat_shownValue (integerResults : Bool) (x : Binary64) :
    (shownValue integerResults x).toRat = x.toRat := by
  rcases shownValue_cases integerResults x with hsame | ⟨-, hzero, hshown⟩
  · rw [hsame]
  · rw [hshown, toRat_of_isZero hzero, toRat_of_isZero rfl]

/-- Results read back. A finite result other than a count has a text, and this text, as a number
and as a cell, is a number of the same value: the result itself, or zero for a zero where whole
numbers are shown as such. So nothing but results of the same value is ever shown by this text. -/
theorem display_readBack (hkind : aggregate ≠ .count) (integerResults : Bool) {x : Binary64}
    (hx : x.isFinite = true) :
    ∃ text value, aggregate.display integerResults x = .ok text ∧
      (Cell.parseNumber? text.toList = some value ∧ Cell.number? (.text text) = some value) ∧
      value.toRat = x.toRat ∧
      (value = x ∨ (integerResults = true ∧ x.isZero = true ∧ value = .zero)) ∧
      ∀ (other : Aggregate) (otherResults : Bool) (y : Binary64), other ≠ .count →
        y.isFinite = true → other.display otherResults y = .ok text → y.toRat = x.toRat := by
  obtain ⟨text, hdisplay, hread⟩ := exists_display_readBack hkind integerResults hx
  have hcell := Cell.number?_of_parseNumber? hread
  rw [String.ofList_toList] at hcell
  refine ⟨text, shownValue integerResults x, hdisplay, ⟨hread, hcell⟩,
    toRat_shownValue integerResults x, shownValue_cases integerResults x, ?_⟩
  intro other otherResults y hother hy hshown
  obtain ⟨otherText, hotherDisplay, hotherRead⟩ := exists_display_readBack hother otherResults hy
  obtain rfl := Except.ok.inj (hshown.symm.trans hotherDisplay)
  have hvalue := Option.some.inj (hread.symm.trans hotherRead)
  rw [← toRat_shownValue otherResults y, ← hvalue, toRat_shownValue]

/-- A negative zero loses its sign, but only where whole numbers are shown as such. -/
theorem display_readBack_negativeZero :
    (Aggregate.min ≠ .count ∧ Binary64.zero.neg.isFinite = true) ∧
      (∃ value, Aggregate.min.display true Binary64.zero.neg = .ok "0" ∧
        Cell.number? (.text "0") = some value ∧ value.toRat = Binary64.zero.neg.toRat) ∧
      ∃ value, Aggregate.min.display false Binary64.zero.neg = .ok "-0.0" ∧
        Cell.number? (.text "-0.0") = some value ∧ value = Binary64.zero.neg := by
  have hkind : Aggregate.min ≠ .count := by decide
  have hfinite : Binary64.zero.neg.isFinite = true := rfl
  have hwhole : Aggregate.min.display true Binary64.zero.neg = .ok "0" := by decide +kernel
  have hsigned : Aggregate.min.display false Binary64.zero.neg = .ok "-0.0" := by decide +kernel
  refine ⟨⟨hkind, hfinite⟩, ?_, ?_⟩
  · obtain ⟨text, value, hdisplay, ⟨-, hcell⟩, hvalue, -⟩ := display_readBack hkind true hfinite
    obtain rfl := Except.ok.inj (hwhole.symm.trans hdisplay)
    exact ⟨value, hwhole, hcell, hvalue⟩
  · obtain ⟨text, value, hdisplay, ⟨-, hcell⟩, -, hvalue | ⟨hfalse, -⟩, -⟩ :=
      display_readBack hkind false hfinite
    · obtain rfl := Except.ok.inj (hsigned.symm.trans hdisplay)
      exact ⟨value, hsigned, hcell, hvalue⟩
    · cases hfalse

end Aggregate

end ColumnFormula
