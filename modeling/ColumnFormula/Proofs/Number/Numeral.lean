import ColumnFormula.Number.Display
import ColumnFormula.Proofs.Number.Digits
import ColumnFormula.Proofs.Number.Shortest

/-!
# The text of a number as a numeral

However a finite magnitude is written, with a point among its digits, with zeros in front of
them or behind them, or with an exponent, its text is a numeral, and the decimal that this
numeral denotes is read as the magnitude. Such a numeral always has a point or an exponent,
which sets it apart from the text of an integer.
-/

namespace ColumnFormula

/-- A number as it is written: digits, of which the first is zero only if it stands alone, a
point with digits behind it and an exponent, of which one may be missing. -/
structure Numeral where
  whole : List Char
  fraction : List Char
  exponent : Option Int
  whole_digits : ∀ c ∈ whole, c.isDigit = true
  fraction_digits : ∀ c ∈ fraction, c.isDigit = true
  whole_ne_nil : whole ≠ []
  leading_zero : whole.head? = some '0' → whole.length = 1
  not_integer : fraction ≠ [] ∨ exponent ≠ none

/-- The digits of an exponent. -/
theorem Binary64.exponentText_eq (exponent : Int) :
    ∃ ds, exponentText exponent = (if exponent < 0 then '-' else '+') :: ds ∧
      ds ≠ [] ∧ (∀ c ∈ ds, c.isDigit = true) ∧ Decimal.digitsValue ds = exponent.natAbs := by
  refine ⟨zeros (2 - (Nat.toDigits 10 exponent.natAbs).length) ++
    Nat.toDigits 10 exponent.natAbs, rfl, by simp, ?_, ?_⟩
  · intro c hc
    rcases List.mem_append.mp hc with hzero | hdigit
    · exact Decimal.isDigit_of_mem_zeros hzero
    · exact Decimal.isDigit_of_mem_toDigits hdigit
  · rw [zeros, Decimal.digitsValue_zeros_append, Decimal.digitsValue_toDigits]

namespace Numeral

open Binary64

/-- The point and the digits behind it, if there are any. -/
def fractionChars (n : Numeral) : List Char :=
  if n.fraction = [] then [] else '.' :: n.fraction

/-- The exponent, if there is one. -/
def exponentChars (n : Numeral) : List Char :=
  match n.exponent with
  | some exponent => 'e' :: Binary64.exponentText exponent
  | none => []

/-- A numeral as a text. -/
def chars (n : Numeral) : List Char :=
  n.whole ++ n.fractionChars ++ n.exponentChars

/-- The decimal that a numeral denotes. -/
def toDecimal (negative : Bool) (n : Numeral) : Decimal :=
  .ofParts negative n.whole n.fraction (n.exponent.getD 0)

/-! ## Significant digits -/

/-- Digits of a positive number without the zeros at their end. -/
structure IsKept (digits : List Char) : Prop where
  isDigit : ∀ c ∈ digits, c.isDigit = true
  ne_nil : digits ≠ []
  head_ne : digits.head? ≠ some '0'

theorem exists_append_zeros (ds : List Char) :
    ∃ k, (ds.reverse.dropWhile (· == '0')).reverse ++ List.replicate k '0' = ds := by
  refine ⟨(ds.reverse.takeWhile (· == '0')).length, ?_⟩
  have hall := List.all_takeWhile (p := (· == '0')) (l := ds.reverse)
  have hzeros : ds.reverse.takeWhile (· == '0') =
      List.replicate (ds.reverse.takeWhile (· == '0')).length '0' := by
    rw [List.eq_replicate_iff]
    refine ⟨rfl, ?_⟩
    intro c hc
    exact beq_iff_eq.mp (List.all_eq_true.mp hall c hc)
  rw [← List.reverse_inj, List.reverse_append, List.reverse_reverse, List.reverse_replicate, ← hzeros]
  exact List.takeWhile_append_dropWhile

/-- What is left of the digits of a positive number without the zeros at their end. -/
theorem isKept_of_append_zeros {n k : Nat} {digits : List Char} (hpos : 0 < n)
    (h : digits ++ List.replicate k '0' = Nat.toDigits 10 n) : IsKept digits := by
  have hhead := Decimal.head?_toDigits hpos
  have hvalue := Decimal.digitsValue_toDigits n
  rw [← h] at hhead hvalue
  rw [Decimal.digitsValue_append_zeros] at hvalue
  cases digits with
  | nil =>
      -- A positive number has a digit that is not zero.
      rw [show Decimal.digitsValue [] = 0 from rfl] at hvalue
      omega
  | cons d ds =>
      refine ⟨?_, List.cons_ne_nil d ds, hhead⟩
      intro c hc
      apply Decimal.isDigit_of_mem_toDigits (n := n)
      rw [← h]
      exact List.mem_append_left _ hc

theorem IsKept.head?_append_ne {digits : List Char} (h : IsKept digits) (rest : List Char) :
    (digits ++ rest).head? ≠ some '0' := by
  have hhead := h.head_ne
  cases digits with
  | nil => exact absurd rfl h.ne_nil
  | cons d ds => exact hhead

theorem IsKept.head?_take_ne {digits : List Char} (h : IsKept digits) {k : Nat} (hpos : 0 < k) :
    (digits.take k).head? ≠ some '0' := by
  rw [List.head?_take, if_neg (by omega)]
  exact h.head_ne

/-! ## Layouts -/

/-- Digits that stand behind the point, with zeros in front of them. -/
def behindPoint {digits : List Char} (h : IsKept digits) (k : Nat) : Numeral where
  whole := ['0']
  fraction := zeros k ++ digits
  exponent := none
  whole_digits := by simp
  fraction_digits := by
    intro c hc
    rcases List.mem_append.mp hc with hzero | hdigit
    · exact Decimal.isDigit_of_mem_zeros hzero
    · exact h.isDigit c hdigit
  whole_ne_nil := by simp
  leading_zero := by simp
  not_integer := by simp [h.ne_nil]

/-- Digits that stand in front of the point, with zeros behind them. -/
def beforePoint {digits : List Char} (h : IsKept digits) (k : Nat) : Numeral where
  whole := digits ++ zeros k
  fraction := ['0']
  exponent := none
  whole_digits := by
    intro c hc
    rcases List.mem_append.mp hc with hdigit | hzero
    · exact h.isDigit c hdigit
    · exact Decimal.isDigit_of_mem_zeros hzero
  fraction_digits := by simp
  whole_ne_nil := by simp [h.ne_nil]
  leading_zero hzero := absurd hzero (h.head?_append_ne _)
  not_integer := by simp

/-- Digits with the point among them. -/
def aroundPoint {digits : List Char} (h : IsKept digits) {k : Nat} (hpos : 0 < k)
    (hlt : k < digits.length) : Numeral where
  whole := digits.take k
  fraction := digits.drop k
  exponent := none
  whole_digits c hc := h.isDigit c (List.mem_of_mem_take hc)
  fraction_digits c hc := h.isDigit c (List.mem_of_mem_drop hc)
  whole_ne_nil := by
    rw [Ne, List.take_eq_nil_iff]
    have hne := h.ne_nil
    rintro (hzero | hnil)
    · omega
    · exact hne hnil
  leading_zero hzero := absurd hzero (h.head?_take_ne hpos)
  not_integer := by
    left
    rw [Ne, List.drop_eq_nil_iff]
    omega

/-- Digits with a point behind the first of them, unless it stands alone, and an exponent. -/
def withExponent {digits : List Char} (h : IsKept digits) (exponent : Int) : Numeral where
  whole := digits.take 1
  fraction := digits.drop 1
  exponent := some exponent
  whole_digits c hc := h.isDigit c (List.mem_of_mem_take hc)
  fraction_digits c hc := h.isDigit c (List.mem_of_mem_drop hc)
  whole_ne_nil := by
    have hne := h.ne_nil
    simp [List.take_eq_nil_iff, hne]
  leading_zero hzero := absurd hzero (h.head?_take_ne Nat.one_pos)
  not_integer := by simp

theorem toDecimal_behindPoint {digits : List Char} (h : IsKept digits) (k : Nat)
    (negative : Bool) :
    (behindPoint h k).toDecimal negative =
      ⟨negative, Decimal.digitsValue digits, -k - digits.length⟩ := by
  rw [toDecimal, Decimal.ofParts, Decimal.mk.injEq]
  refine ⟨rfl, ?_, ?_⟩
  · exact Decimal.digitsValue_zeros_append (k + 1) digits
  · simp only [behindPoint, zeros, List.length_append, List.length_replicate, Option.getD_none]
    omega

theorem toDecimal_beforePoint {digits : List Char} (h : IsKept digits) (k : Nat)
    (negative : Bool) :
    (beforePoint h k).toDecimal negative =
      ⟨negative, Decimal.digitsValue digits * Nat.pow 10 (k + 1), k - (k + 1 : Nat)⟩ := by
  rw [toDecimal, Decimal.ofParts, Decimal.mk.injEq]
  refine ⟨rfl, ?_, ?_⟩
  · have hzeros : (digits ++ zeros k) ++ ['0'] = digits ++ List.replicate (k + 1) '0' := by
      rw [List.append_assoc, List.replicate_succ', zeros]
    exact hzeros ▸ Decimal.digitsValue_append_zeros digits (k + 1)
  · simp only [beforePoint, List.length_singleton, Option.getD_none]
    omega

theorem toDecimal_aroundPoint {digits : List Char} (h : IsKept digits) {k : Nat} (hpos : 0 < k)
    (hlt : k < digits.length) (negative : Bool) :
    (aroundPoint h hpos hlt).toDecimal negative =
      ⟨negative, Decimal.digitsValue digits, k - digits.length⟩ := by
  rw [toDecimal, Decimal.ofParts, Decimal.mk.injEq]
  refine ⟨rfl, ?_, ?_⟩
  · rw [aroundPoint, List.take_append_drop]
  · simp only [aroundPoint, List.length_drop, Option.getD_none]
    omega

theorem toDecimal_withExponent {digits : List Char} (h : IsKept digits) (exponent : Int)
    (negative : Bool) :
    (withExponent h exponent).toDecimal negative =
      ⟨negative, Decimal.digitsValue digits, exponent + 1 - digits.length⟩ := by
  have hlength : 0 < digits.length := List.length_pos_iff.mpr h.ne_nil
  rw [toDecimal, Decimal.ofParts, Decimal.mk.injEq]
  refine ⟨rfl, ?_, ?_⟩
  · rw [withExponent, List.take_append_drop]
  · simp only [withExponent, List.length_drop, Option.getD_some]
    omega

/-- Positional texts are numerals of the value that their digits have at their place. -/
theorem exists_chars_positional {digits : List Char} (h : IsKept digits) (place : Int) :
    ∃ n : Numeral, n.chars = positional digits place ∧ ∀ negative,
      (n.toDecimal negative).toBinary64 =
        (Decimal.mk negative (Decimal.digitsValue digits) (place - digits.length)).toBinary64 := by
  unfold positional
  split
  next hplace =>
    refine ⟨behindPoint h (-place).toNat, ?_, ?_⟩
    · simp [chars, fractionChars, exponentChars, behindPoint, h.ne_nil]
    · intro negative
      have hexponent : -((-place).toNat : Int) = place := by omega
      rw [toDecimal_behindPoint, hexponent]
  split
  next hplace hlength =>
    refine ⟨beforePoint h (place.toNat - digits.length), ?_, ?_⟩
    · simp [chars, fractionChars, exponentChars, beforePoint]
    · intro negative
      have hexponent : ((place.toNat - digits.length : Nat) : Int) = place - digits.length := by
        omega
      rw [toDecimal_beforePoint, Decimal.toBinary64_shift, hexponent]
  next hplace hlength =>
    refine ⟨aroundPoint h (k := place.toNat) (by omega) (by omega), ?_, ?_⟩
    · have hrest : place.toNat < digits.length := by omega
      simp [chars, fractionChars, exponentChars, aroundPoint, hrest]
    · intro negative
      have hexponent : (place.toNat : Int) = place := by omega
      rw [toDecimal_aroundPoint, hexponent]

theorem chars_withExponent {digits : List Char} (h : IsKept digits) (exponent : Int) :
    (withExponent h exponent).chars = scientific digits exponent := by
  cases digits with
  | nil => exact absurd rfl h.ne_nil
  | cons d rest =>
      cases rest with
      | nil => rfl
      | cons e rest => simp [chars, fractionChars, exponentChars, withExponent, scientific]

/-- The text of a decimal is a numeral of its value. -/
theorem exists_chars_decimalText {digits : Nat} (hpos : 0 < digits) (exponent : Int) :
    ∃ n : Numeral, n.chars = decimalText digits exponent ∧ ∀ negative,
      (n.toDecimal negative).toBinary64 = (Decimal.mk negative digits exponent).toBinary64 := by
  obtain ⟨k, hk⟩ := exists_append_zeros (Nat.toDigits 10 digits)
  have hkept := isKept_of_append_zeros hpos hk
  unfold decimalText
  simp only
  generalize ((Nat.toDigits 10 digits).reverse.dropWhile (· == '0')).reverse = kept at hk hkept
  -- The zeros that the text leaves out are places of the exponent.
  have hshift : ∀ negative,
      (Decimal.mk negative (Decimal.digitsValue kept)
          ((Nat.toDigits 10 digits).length + exponent - kept.length)).toBinary64 =
        (Decimal.mk negative digits exponent).toBinary64 := by
    intro negative
    have hvalue := Decimal.digitsValue_toDigits digits
    have hexponent : ((Nat.toDigits 10 digits).length : Int) + exponent - kept.length =
        exponent + k := by
      rw [← hk, List.length_append, List.length_replicate]
      omega
    rw [← hk, Decimal.digitsValue_append_zeros] at hvalue
    rw [hexponent, ← Decimal.toBinary64_shift negative _ k, hvalue, Int.add_sub_cancel]
  split
  next =>
    obtain ⟨n, hchars, hvalue⟩ := exists_chars_positional hkept
      ((Nat.toDigits 10 digits).length + exponent)
    exact ⟨n, hchars, fun negative => (hvalue negative).trans (hshift negative)⟩
  next =>
    refine ⟨withExponent hkept _, chars_withExponent hkept _, ?_⟩
    intro negative
    rw [toDecimal_withExponent, Int.sub_add_cancel, hshift]

theorem toBinary64_zero (negative : Bool) (exponent : Int) (h : Representable 0) :
    (Decimal.mk negative 0 exponent).toBinary64 = .finite negative 0 h := by
  simp only [Decimal.toBinary64, true_or, if_true]
  exact ofUnits_eq_finite negative h (roundRatio_zero 1)

theorem shortest_pos {units : Nat} (hpos : 0 < units) (h : Representable units) :
    0 < (shortest units).1 := by
  have hvalue := toBinary64_shortest false hpos h
  rcases Nat.eq_zero_or_pos (shortest units).1 with hzero | hdigits
  · rw [hzero, toBinary64_zero false _ ⟨by decide +kernel, Nat.dvd_zero _⟩] at hvalue
    cases hvalue
    omega
  · exact hdigits

/-- The text of zero. -/
def zeroPointZero : Numeral where
  whole := ['0']
  fraction := ['0']
  exponent := none
  whole_digits := by simp
  fraction_digits := by simp
  whole_ne_nil := by simp
  leading_zero := by simp
  not_integer := by simp

/-- The text of a magnitude is a numeral that is read as the magnitude. -/
theorem exists_chars_magnitudeText {units : Nat} (h : Representable units) :
    ∃ n : Numeral, n.chars = magnitudeText units ∧ ∀ negative,
      (n.toDecimal negative).toBinary64 = .finite negative units h := by
  unfold magnitudeText
  split
  next hzero =>
    subst hzero
    exact ⟨zeroPointZero, rfl, fun negative => toBinary64_zero negative _ h⟩
  next hne =>
    have hpos : 0 < units := Nat.pos_of_ne_zero hne
    obtain ⟨n, hchars, hvalue⟩ := exists_chars_decimalText (shortest_pos hpos h) (shortest units).2
    exact ⟨n, hchars, fun negative => (hvalue negative).trans (toBinary64_shortest negative hpos h)⟩

end Numeral

end ColumnFormula
