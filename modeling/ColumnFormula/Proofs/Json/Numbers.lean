import ColumnFormula.Json.Printer
import ColumnFormula.Json.Reader
import ColumnFormula.Proofs.Number.Numeral

/-!
# Numbers read back

An integer is read from its digits and a binary64 number from its numeral, if what follows
cannot be taken for more of the number. Nothing else begins with a digit or with a minus sign
and a digit, so the reader of values comes to the same number.
-/

namespace ColumnFormula.Json

open Decimal

/-- Whether what follows a number leaves the number as it is. -/
def EndsNumber (rest : List Char) : Prop :=
  ∀ c ∈ rest.head?, c.isDigit = false ∧ c ≠ '.' ∧ c ≠ 'e' ∧ c ≠ 'E'

theorem EndsNumber.isDigit_eq_false {rest : List Char} (h : EndsNumber rest) :
    ∀ c ∈ rest.head?, c.isDigit = false :=
  fun c hc => (h c hc).1

theorem EndsNumber.readFraction_eq_none {rest : List Char} (h : EndsNumber rest) :
    readFraction rest = none := by
  unfold readFraction
  split
  next s => exact absurd rfl (h '.' rfl).2.1
  next => rfl

theorem EndsNumber.readExponent_eq_none {rest : List Char} (h : EndsNumber rest) :
    readExponent rest = none := by
  unfold readExponent
  split
  next c s =>
    obtain ⟨_, _, hsmall, hcapital⟩ := h c rfl
    rw [if_neg (by simp [hsmall, hcapital])]
  next => rfl

/-! ## Numbers -/

theorem not_refused {whole : List Char} (hne : whole ≠ [])
    (hzero : whole.head? = some '0' → whole.length = 1) :
    ¬ (whole.isEmpty ∨ (whole.head? = some '0' ∧ 1 < whole.length)) := by
  rintro (hempty | ⟨hhead, hlength⟩)
  · exact hne (List.isEmpty_iff.mp hempty)
  · have hone := hzero hhead
    omega

theorem leading_zero_toDigits (n : Nat) :
    (Nat.toDigits 10 n).head? = some '0' → (Nat.toDigits 10 n).length = 1 := by
  intro hhead
  rcases Nat.eq_zero_or_pos n with rfl | hpos
  · rw [Nat.toDigits_zero, List.length_singleton]
  · exact absurd hhead (head?_toDigits hpos)

/-- An integer is read from its digits. -/
theorem readNumber_toDigits (negative : Bool) {n : Nat} {rest : List Char}
    (hlength : (Nat.toDigits 10 n).length ≤ maxDigits) (hrest : EndsNumber rest) :
    readNumber negative (Nat.toDigits 10 n ++ rest) =
      .ok (.int (if negative then -n else n), rest) := by
  rw [readNumber, takeDigits_append (fun c => isDigit_of_mem_toDigits) hrest.isDigit_eq_false]
  simp only [not_refused Nat.toDigits_ne_nil (leading_zero_toDigits n), if_false,
    hrest.readFraction_eq_none, Option.elim_none, hrest.readExponent_eq_none,
    Nat.not_lt.mpr hlength, digitsValue_toDigits]

theorem readFraction_fractionChars (n : Numeral) {rest : List Char}
    (hrest : ∀ c ∈ rest.head?, c.isDigit = false ∧ c ≠ '.') :
    readFraction (n.fractionChars ++ rest) =
      if n.fraction = [] then none else some (n.fraction, rest) := by
  unfold Numeral.fractionChars
  split
  next =>
    rw [List.nil_append]
    unfold readFraction
    split
    next => exact absurd rfl (hrest '.' rfl).2
    next => rfl
  next hne =>
    rw [List.cons_append, readFraction,
      takeDigits_append n.fraction_digits (fun c hc => (hrest c hc).1)]
    simp [hne]

theorem takeSign_sign (negative : Prop) [Decidable negative] (s : List Char) :
    takeSign ((if negative then '-' else '+') :: s) = (decide negative, s) := by
  by_cases h : negative
  · simp [h, takeSign]
  · simp [h, takeSign]

theorem readExponent_exponentText (exponent : Int) {rest : List Char}
    (hrest : ∀ c ∈ rest.head?, c.isDigit = false) :
    readExponent ('e' :: (Binary64.exponentText exponent ++ rest)) = some (exponent, rest) := by
  obtain ⟨ds, htext, hne, hdigits, hvalue⟩ := Binary64.exponentText_eq exponent
  rw [htext, List.cons_append, readExponent, if_pos (.inl rfl), takeSign_sign]
  simp only [takeDigits_append hdigits hrest, List.isEmpty_iff, hne, if_false, hvalue]
  by_cases hnegative : exponent < 0
  · simp only [hnegative, decide_true, if_true, Option.some.injEq, Prod.mk.injEq, and_true]
    omega
  · simp only [hnegative, decide_false, Bool.false_eq_true, if_false, Option.some.injEq,
      Prod.mk.injEq, and_true]
    omega

theorem readExponent_exponentChars (n : Numeral) {rest : List Char} (hrest : EndsNumber rest) :
    readExponent (n.exponentChars ++ rest) = n.exponent.map (·, rest) := by
  unfold Numeral.exponentChars
  split
  next exponent hexponent =>
    rw [List.cons_append, readExponent_exponentText exponent hrest.isDigit_eq_false, hexponent]
    rfl
  next hnone =>
    rw [List.nil_append, hrest.readExponent_eq_none, hnone]
    rfl

/-- What follows the digits behind the point is no digit and no point. -/
theorem head?_exponentChars_append (n : Numeral) {rest : List Char} (hrest : EndsNumber rest) :
    ∀ c ∈ (n.exponentChars ++ rest).head?, c.isDigit = false ∧ c ≠ '.' := by
  unfold Numeral.exponentChars
  split
  next =>
    intro c hc
    obtain rfl : 'e' = c := by simpa using hc
    decide
  next =>
    intro c hc
    exact ⟨(hrest c hc).1, (hrest c hc).2.1⟩

/-- What follows the digits in front of the point is no digit. -/
theorem head?_fractionChars_append (n : Numeral) {rest : List Char}
    (hrest : ∀ c ∈ rest.head?, c.isDigit = false) :
    ∀ c ∈ (n.fractionChars ++ rest).head?, c.isDigit = false := by
  unfold Numeral.fractionChars
  split
  next => exact hrest
  next =>
    intro c hc
    obtain rfl : '.' = c := by simpa using hc
    decide

/-- A numeral is read as the value of its decimal. -/
theorem readNumber_chars (negative : Bool) (n : Numeral) {rest : List Char}
    (hrest : EndsNumber rest) :
    readNumber negative (n.chars ++ rest) =
      .ok (.float (n.toDecimal negative).toBinary64, rest) := by
  have hexponent := head?_exponentChars_append n hrest
  have hfraction := head?_fractionChars_append n (fun c hc => (hexponent c hc).1)
  have helim : (readFraction (n.fractionChars ++ (n.exponentChars ++ rest))).elim
      (n.fractionChars ++ (n.exponentChars ++ rest)) (·.2) = n.exponentChars ++ rest := by
    rw [readFraction_fractionChars n hexponent]
    split
    next hnil => rw [Numeral.fractionChars, if_pos hnil]; rfl
    next => rfl
  rw [Numeral.chars, List.append_assoc, List.append_assoc, readNumber,
    takeDigits_append n.whole_digits hfraction]
  simp only [not_refused n.whole_ne_nil n.leading_zero, if_false, helim,
    readExponent_exponentChars n hrest]
  rw [readFraction_fractionChars n hexponent]
  -- With neither fraction nor exponent the number would be read as an integer.
  have hinteger := n.not_integer
  by_cases hnil : n.fraction = []
  · cases hpower : n.exponent with
    | none => simp [hnil, hpower] at hinteger
    | some power =>
        simp only [hnil, if_true, Numeral.toDecimal, hpower, Option.map_some, Option.getD_some,
          Option.elim_some, Option.elim_none]
  · cases hpower : n.exponent with
    | none =>
        have hchars : n.exponentChars = [] := by rw [Numeral.exponentChars, hpower]
        simp only [hnil, if_false, Numeral.toDecimal, hpower, Option.map_none, Option.getD_none,
          Option.elim_some, Option.elim_none, hchars, List.nil_append]
    | some power =>
        simp only [hnil, if_false, Numeral.toDecimal, hpower, Option.map_some, Option.getD_some,
          Option.elim_some]

/-! ## Values -/

theorem readScalar_of_isDigit {c : Char} (hc : c.isDigit = true) (s : List Char) :
    readScalar (c :: s) = readNumber false (c :: s) := by
  rw [readScalar.eq_def]
  split
  all_goals first
    | rfl
    | next heq =>
        obtain ⟨rfl, -⟩ := List.cons.inj heq
        exact absurd hc (by decide)

theorem readScalar_minus {c : Char} (hc : c.isDigit = true) (s : List Char) :
    readScalar ('-' :: c :: s) = readNumber true (c :: s) := by
  rw [readScalar.eq_def]
  split
  next heq => exact absurd (List.cons.inj heq).1 (by decide)
  next heq => exact absurd (List.cons.inj heq).1 (by decide)
  next heq => exact absurd (List.cons.inj heq).1 (by decide)
  next heq => exact absurd (List.cons.inj heq).1 (by decide)
  next heq => exact absurd (List.cons.inj heq).1 (by decide)
  next heq =>
    obtain ⟨rfl, -⟩ := List.cons.inj (List.cons.inj heq).2
    exact absurd hc (by decide)
  next heq =>
    obtain ⟨-, rfl⟩ := List.cons.inj heq
    rfl
  next hminus => exact absurd rfl (hminus (c :: s))

/-- What begins with a digit is read as a number, behind a minus sign as a negative one. -/
theorem readScalar_signed (negative : Prop) [Decidable negative] {ds : List Char} (hne : ds ≠ [])
    (hdigits : ∀ c ∈ ds, c.isDigit = true) (rest : List Char) :
    readScalar ((if negative then ['-'] else []) ++ ds ++ rest) =
      readNumber (decide negative) (ds ++ rest) := by
  cases ds with
  | nil => exact absurd rfl hne
  | cons c ds =>
      have hc : c.isDigit = true := hdigits c (by simp)
      by_cases hsign : negative
      · simp only [hsign, if_true, decide_true]
        exact readScalar_minus hc _
      · simp only [hsign, if_false, decide_false]
        exact readScalar_of_isDigit hc _

theorem readScalar_writeInt {n : Int} {rest : List Char}
    (hlength : (Nat.toDigits 10 n.natAbs).length ≤ maxDigits) (hrest : EndsNumber rest) :
    readScalar (writeInt n ++ rest) = .ok (.int n, rest) := by
  have hvalue : (if decide (n < 0) = true then -(n.natAbs : Int) else n.natAbs) = n := by
    simp only [decide_eq_true_eq]
    omega
  rw [writeInt, readScalar_signed _ Nat.toDigits_ne_nil (fun c => isDigit_of_mem_toDigits),
    readNumber_toDigits _ hlength hrest, hvalue]

theorem readScalar_writeFloat (x : Binary64) {rest : List Char} (hrest : EndsNumber rest) :
    readScalar (writeFloat x ++ rest) = .ok (.float x, rest) := by
  cases x with
  | nan => rfl
  | infinite negative => cases negative <;> rfl
  | finite negative units h =>
      obtain ⟨n, hchars, hvalue⟩ := Numeral.exists_chars_magnitudeText h
      have hread := readNumber_chars negative n hrest
      rw [Numeral.chars, List.append_assoc, List.append_assoc] at hread
      have hsigned := readScalar_signed (negative = true) n.whole_ne_nil n.whole_digits
        (n.fractionChars ++ (n.exponentChars ++ rest))
      rw [Bool.decide_eq_true, hread, hvalue] at hsigned
      change readScalar ((if negative then ['-'] else []) ++ Binary64.magnitudeText units ++ rest) = _
      rw [← hchars, Numeral.chars]
      simpa only [List.append_assoc] using hsigned

end ColumnFormula.Json
