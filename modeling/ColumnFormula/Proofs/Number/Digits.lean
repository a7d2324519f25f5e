import Mathlib.Data.List.TakeDrop
import Mathlib.Data.List.TakeWhile
import ColumnFormula.Number.Decimal

/-!
# Rows of digits

A number is read back from its digits, also with zeros in front of them, and zeros behind
them multiply it by powers of ten. Digits are read as far as they go, so whatever follows a
number must not begin with one.
-/

namespace ColumnFormula.Decimal

/-! ## Values -/

@[simp] theorem digitsValue_toDigits (n : Nat) : digitsValue (Nat.toDigits 10 n) = n :=
  Nat.ofDigitChars_ten_toDigits

theorem digitsValue_zeros_append (n : Nat) (ds : List Char) :
    digitsValue (List.replicate n '0' ++ ds) = digitsValue ds := by
  simp [digitsValue, Nat.ofDigitChars_append]

theorem digitsValue_append_zeros (ds : List Char) (n : Nat) :
    digitsValue (ds ++ List.replicate n '0') = digitsValue ds * Nat.pow 10 n := by
  simp [digitsValue, Nat.ofDigitChars_append, Nat.mul_comm]

theorem digitsValue_append (ds es : List Char) :
    digitsValue (ds ++ es) = digitsValue ds * Nat.pow 10 es.length + digitsValue es := by
  rw [digitsValue, Nat.ofDigitChars_append, Nat.ofDigitChars_eq_ofDigitChars_zero, Nat.mul_comm]
  rfl

/-! ## Characters -/

theorem isDigit_of_mem_toDigits {n : Nat} {c : Char} (h : c ∈ Nat.toDigits 10 n) :
    c.isDigit = true :=
  Nat.isDigit_of_mem_toDigits (by omega) (by omega) h

theorem isDigit_of_mem_zeros {n : Nat} {c : Char} (h : c ∈ List.replicate n '0') :
    c.isDigit = true := by
  rw [List.eq_of_mem_replicate h]
  rfl

/-- The first digit of a positive number is not zero. -/
theorem head?_toDigits {n : Nat} (hpos : 0 < n) : (Nat.toDigits 10 n).head? ≠ some '0' := by
  induction n using Nat.strongRecOn with
  | ind n ih =>
      rcases Nat.lt_or_ge n 10 with hlt | hge
      · rw [Nat.toDigits_of_lt_base hlt]
        simp only [List.head?_cons, ne_eq, Option.some.injEq, Nat.digitChar_eq_zero]
        omega
      · have hfirst := ih (n / 10) (by omega) (by omega)
        obtain ⟨d, ds, hds⟩ := List.exists_cons_of_ne_nil (Nat.toDigits_ne_nil (n := n / 10) (b := 10))
        rw [Nat.toDigits_of_base_le (by omega) hge, hds]
        rw [hds] at hfirst
        exact hfirst

/-- The text of an integer: a sign if it is negative, and its digits. -/
theorem toList_toString (n : Int) :
    (toString n).toList = (if n < 0 then ['-'] else []) ++ Nat.toDigits 10 n.natAbs := by
  cases n with
  | ofNat n => exact Nat.toList_repr
  | negSucc n =>
      change ("-" ++ Nat.repr (n + 1)).toList = _
      rw [String.toList_append, Nat.toList_repr, if_pos (by omega)]
      rfl

/-- Digits are read up to what is no digit. -/
theorem takeDigits_append {ds rest : List Char} (hdigits : ∀ c ∈ ds, c.isDigit = true)
    (hrest : ∀ c ∈ rest.head?, c.isDigit = false) : takeDigits (ds ++ rest) = (ds, rest) := by
  rw [takeDigits, List.span_eq_takeWhile_dropWhile]
  rw [List.takeWhile_append_of_pos hdigits, List.dropWhile_append_of_pos hdigits]
  cases rest with
  | nil => simp
  | cons c rest =>
      have hc : c.isDigit = false := hrest c rfl
      simp [hc]

/-- What is read as digits stands in front of the rest. -/
theorem takeDigits_spec (s : List Char) :
    (takeDigits s).1 ++ (takeDigits s).2 = s ∧ ∀ c ∈ (takeDigits s).1, c.isDigit = true := by
  rw [takeDigits, List.span_eq_takeWhile_dropWhile]
  exact ⟨List.takeWhile_append_dropWhile, fun c hc => List.mem_takeWhile_imp hc⟩

end ColumnFormula.Decimal
