import ColumnFormula.Aggregate
import ColumnFormula.Proofs.Number.Decimal
import ColumnFormula.Proofs.Number.Digits
import ColumnFormula.Proofs.Number.Shortest

/-!
# Texts of numbers are short

On the grid twenty places behind the first digit of a magnitude, neighbours lie closer together
than the numbers that read back as this magnitude lie apart, so the search for the shortest
decimal ends there at the latest. It has no more than 22 digits, and no text of a number has more
than 41 characters.
-/

namespace ColumnFormula.Binary64

/-! ## Grids -/

/-- What magnitudes are multiplied by so that the points of a grid are whole. -/
def gridScale (exponent : Int) : Nat :=
  if 0 ≤ exponent then 1 else Nat.pow 10 (-exponent).toNat

/-- How far the points of a grid lie apart, in scaled units. -/
def gridGap (exponent : Int) : Nat :=
  if 0 ≤ exponent then Nat.pow 10 exponent.toNat * unitsPerOne else unitsPerOne

theorem gridScale_pos (exponent : Int) : 0 < gridScale exponent := by
  unfold gridScale
  split
  · exact Nat.one_pos
  · exact Nat.pow_pos (by decide)

theorem gridGap_pos (exponent : Int) : 0 < gridGap exponent := by
  unfold gridGap
  split
  · exact Nat.mul_pos (Nat.pow_pos (by decide)) unitsPerOne_pos
  · exact unitsPerOne_pos

/-- Scaling does not change how far the points of a grid lie apart. -/
theorem gridGap_mul {exponent : Int} {a b : Nat} (h : exponent = a - b) :
    gridGap exponent * Nat.pow 10 b = Nat.pow 10 a * unitsPerOne * gridScale exponent := by
  unfold gridGap gridScale
  split
  next hexponent =>
    have ha : a = exponent.toNat + b := by omega
    rw [ha, Decimal.ten_pow_add, Nat.mul_one, Nat.mul_right_comm]
  next hexponent =>
    have hb : b = a + (-exponent).toNat := by omega
    conv => lhs; rw [hb]
    rw [Decimal.ten_pow_add, Nat.mul_left_comm, Nat.mul_assoc]

theorem gridPoint_eq (k : Nat) (exponent : Int) :
    gridPoint k exponent = (k * gridGap exponent, gridScale exponent) := by
  unfold gridPoint gridGap gridScale
  split
  · rw [Nat.mul_assoc]
  · rfl

theorem gridHit?_eq (units : Nat) (exponent : Int) :
    gridHit? units exponent =
      let low := units * gridScale exponent / gridGap exponent
      match readsBack units (low * gridGap exponent) (gridScale exponent),
        readsBack units ((low + 1) * gridGap exponent) (gridScale exponent) with
      | true, true => some (roundHalfEven (units * gridScale exponent) (gridGap exponent))
      | true, false => some low
      | false, true => some (low + 1)
      | false, false => none := by
  have hscaled : (if 0 ≤ exponent then units else units * Nat.pow 10 (-exponent).toNat) =
      units * gridScale exponent := by
    unfold gridScale
    split
    · rw [Nat.mul_one]
    · rfl
  unfold gridHit?
  simp only [gridPoint_eq, hscaled]
  rfl

/-- A hit is one of the two points next to the magnitude. -/
theorem le_of_gridHit? {units k : Nat} {exponent : Int} (h : gridHit? units exponent = some k) :
    k ≤ units * gridScale exponent / gridGap exponent + 1 := by
  rw [gridHit?_eq] at h
  dsimp only at h
  split at h
  · obtain rfl := Option.some.inj h
    exact roundHalfEven_le (Nat.lt_succ_self _)
  · obtain rfl := Option.some.inj h
    exact Nat.le_succ _
  · obtain rfl := Option.some.inj h
    exact Nat.le_refl _
  · cases h

/-- The point above a magnitude reads back as it if the gap is less than half the spacing. -/
theorem readsBack_next {units den gap : Nat} (hgap : 0 < gap)
    (h : 2 * gap < spacing units * den) :
    readsBack units ((units * den / gap + 1) * gap) den = true := by
  have hbelow : units * den < (units * den / gap + 1) * gap := by
    rw [Nat.mul_comm _ gap]
    exact Nat.lt_mul_div_succ _ hgap
  have habove : (units * den / gap + 1) * gap ≤ units * den + gap := by
    rw [Nat.succ_mul]
    exact Nat.add_le_add_right (Nat.div_mul_le_self _ _) gap
  have hlow : quadrupleLow units * den ≤ 4 * (units * den) := by
    rw [← Nat.mul_assoc]
    apply Nat.mul_le_mul_right
    unfold quadrupleLow
    split <;> exact Nat.sub_le _ _
  have hhigh : quadrupleHigh units * den = 4 * (units * den) + 2 * (spacing units * den) := by
    rw [quadrupleHigh, Nat.add_mul, Nat.mul_assoc, Nat.mul_assoc]
  generalize (units * den / gap + 1) * gap = next at *
  unfold readsBack
  simp only [hhigh]
  split <;> simp only [Bool.and_eq_true, decide_eq_true_eq] <;> omega

theorem isSome_gridHit? {units : Nat} {exponent : Int}
    (h : 2 * gridGap exponent < spacing units * gridScale exponent) :
    gridHit? units exponent ≠ none := by
  rw [gridHit?_eq]
  simp only [readsBack_next (gridGap_pos exponent) h]
  split <;> simp_all

/-- The exact value, where the search ends at the latest, is a point of its grid. -/
theorem exact_eq_div (units : Nat) :
    units * Nat.pow 5 1074 = units * gridScale (-1074) / gridGap (-1074) := by
  have hplaces : (-(-1074 : Int)).toNat = 1074 := rfl
  rw [gridScale, gridGap, if_neg (by decide), if_neg (by decide), hplaces]
  delta unitsPerOne
  generalize 1074 = j
  have hten : Nat.pow 5 j * Nat.pow 2 j = Nat.pow 10 j := (Nat.mul_pow 5 2 j).symm
  rw [← hten, ← Nat.mul_assoc]
  exact (Nat.mul_div_cancel _ (Nat.two_pow_pos j)).symm

/-- The search ends on a grid that is fine enough, or sooner, and next to the magnitude. -/
theorem searchGrids_bounds {units fuel : Nat} {stop exponent : Int}
    (hstop : 2 * gridGap stop < spacing units * gridScale stop) (hle : stop ≤ exponent)
    (hfuel : fuel = (exponent + 1074).toNat) :
    stop ≤ (searchGrids units fuel exponent).2 ∧
      (searchGrids units fuel exponent).2 ≤ max exponent (-1074) ∧
      (searchGrids units fuel exponent).1 ≤
        units * gridScale (searchGrids units fuel exponent).2 /
          gridGap (searchGrids units fuel exponent).2 + 1 := by
  induction fuel generalizing exponent with
  | zero =>
      rw [searchGrids]
      have hlast : exponent ≤ -1074 := by omega
      refine ⟨Int.le_trans hle hlast, Int.le_max_right _ _, ?_⟩
      rw [exact_eq_div]
      exact Nat.le_succ _
  | succ fuel ih =>
      rw [searchGrids]
      split
      next k hhit => exact ⟨hle, Int.le_max_left _ _, le_of_gridHit? hhit⟩
      next hnone =>
        have hne : stop ≠ exponent := by
          rintro rfl
          exact isSome_gridHit? hstop hnone
        obtain ⟨hlow, hhigh, hdigits⟩ := @ih (exponent - 1) (by omega) (by omega)
        exact ⟨hlow, by omega, hdigits⟩

/-! ## The first digit -/

theorem exists_unitLimit_le : ∃ j, j ≤ 2098 ∧ unitLimit ≤ Nat.pow 10 j := by
  refine ⟨2098, Nat.le_refl _, ?_⟩
  delta unitLimit
  generalize 2098 = j
  exact Nat.pow_le_pow_left (by decide) j

/-- A magnitude lies between two powers of ten; the first is that of its first digit. The exponent
`k` is that of the places among which this digit is looked for. -/
theorem leadingExponent_bounds {units : Nat} (hpos : 0 < units) (hlimit : units < unitLimit) :
    ∃ a k : Nat, leadingExponent units = a - k ∧ k = 400 ∧ a ≤ 2498 ∧
      Nat.pow 10 a * unitsPerOne ≤ units * Nat.pow 10 k ∧
      units * Nat.pow 10 k < Nat.pow 10 (a + 1) * unitsPerOne := by
  obtain ⟨k, hk, hplaces⟩ : ∃ k, 400 = k ∧ 331 ≤ k := ⟨400, rfl, by decide⟩
  have hone : unitsPerOne ≤ units * Nat.pow 10 k :=
    calc unitsPerOne ≤ 2 * unitsPerOne := Nat.le_mul_of_pos_left _ (by decide)
      _ ≤ Nat.pow 10 k := Decimal.double_unitsPerOne_le hplaces
      _ ≤ units * Nat.pow 10 k := Nat.le_mul_of_pos_left _ hpos
  obtain ⟨j, hj, hten⟩ := exists_unitLimit_le
  unfold leadingExponent
  rw [hk]
  have hquot : 0 < units * Nat.pow 10 k / unitsPerOne := Nat.div_pos hone unitsPerOne_pos
  have hdigits : 0 < (Nat.toDigits 10 (units * Nat.pow 10 k / unitsPerOne)).length :=
    Nat.length_toDigits_pos
  have hlength : (Nat.toDigits 10 (units * Nat.pow 10 k / unitsPerOne)).length ≤ j + k := by
    apply (Nat.length_toDigits_le_iff (by decide) (by omega)).mpr
    calc units * Nat.pow 10 k / unitsPerOne ≤ units * Nat.pow 10 k := Nat.div_le_self _ _
      _ < unitLimit * Nat.pow 10 k := Nat.mul_lt_mul_of_pos_right hlimit (Nat.pow_pos (by decide))
      _ ≤ Nat.pow 10 j * Nat.pow 10 k := Nat.mul_le_mul_right _ hten
      _ = Nat.pow 10 (j + k) := (Decimal.ten_pow_add j k).symm
  have hfirst := (Nat.le_div_iff_mul_le unitsPerOne_pos).mp (Decimal.ten_pow_le hquot)
  have hnext := (Nat.div_lt_iff_lt_mul unitsPerOne_pos).mp
    (Decimal.lt_ten_pow (units * Nat.pow 10 k / unitsPerOne))
  generalize (Nat.toDigits 10 (units * Nat.pow 10 k / unitsPerOne)).length = digits at *
  obtain ⟨a, rfl⟩ : ∃ a, digits = a + 1 := ⟨digits - 1, (Nat.sub_add_cancel hdigits).symm⟩
  exact ⟨a, k, by omega, rfl, by omega, hfirst, hnext⟩

/-! ## Digits -/

section Digits

variable {units a k : Nat} {exponent : Int}

/-- Twenty places behind the first digit a grid is fine enough. -/
theorem gridGap_lt (hexponent : exponent = a - (20 + k : Nat))
    (hfirst : Nat.pow 10 a * unitsPerOne ≤ units * Nat.pow 10 k) :
    2 * gridGap exponent < spacing units * gridScale exponent := by
  have hgap : gridGap exponent * Nat.pow 10 20 ≤ units * gridScale exponent := by
    apply Nat.le_of_mul_le_mul_right _ (Nat.pow_pos (by decide) : 0 < Nat.pow 10 k)
    calc gridGap exponent * Nat.pow 10 20 * Nat.pow 10 k
        = Nat.pow 10 a * unitsPerOne * gridScale exponent := by
          rw [Nat.mul_assoc, ← Decimal.ten_pow_add, gridGap_mul hexponent]
      _ ≤ units * Nat.pow 10 k * gridScale exponent := Nat.mul_le_mul_right _ hfirst
      _ = units * gridScale exponent * Nat.pow 10 k := Nat.mul_right_comm _ _ _
  apply Nat.lt_of_mul_lt_mul_left (a := Nat.pow 2 53)
  calc Nat.pow 2 53 * (2 * gridGap exponent)
      = gridGap exponent * (Nat.pow 2 53 * 2) := by rw [← Nat.mul_assoc, Nat.mul_comm]
    _ ≤ gridGap exponent * Nat.pow 10 20 := Nat.mul_le_mul_left _ (by decide)
    _ ≤ units * gridScale exponent := hgap
    _ < Nat.pow 2 53 * spacing units * gridScale exponent :=
        Nat.mul_lt_mul_of_pos_right (lt_two_pow_mul_spacing units) (gridScale_pos exponent)
    _ = Nat.pow 2 53 * (spacing units * gridScale exponent) := Nat.mul_assoc _ _ _

/-- On no coarser grid has a magnitude more than 22 digits. -/
theorem quotient_lt (hexponent : (a : Int) - (20 + k : Nat) ≤ exponent)
    (hnext : units * Nat.pow 10 k < Nat.pow 10 (a + 1) * unitsPerOne) :
    units * gridScale exponent / gridGap exponent < Nat.pow 10 21 := by
  obtain ⟨i, hi⟩ : ∃ i : Nat, exponent = (a + i : Nat) - (20 + k : Nat) :=
    ⟨(exponent - (a - (20 + k : Nat))).toNat, by omega⟩
  rw [Nat.div_lt_iff_lt_mul (gridGap_pos exponent)]
  apply Nat.lt_of_mul_lt_mul_right (a := Nat.pow 10 k)
  calc units * gridScale exponent * Nat.pow 10 k
      = units * Nat.pow 10 k * gridScale exponent := Nat.mul_right_comm _ _ _
    _ < Nat.pow 10 (a + 1) * unitsPerOne * gridScale exponent :=
        Nat.mul_lt_mul_of_pos_right hnext (gridScale_pos exponent)
    _ ≤ Nat.pow 10 (a + i + 1) * unitsPerOne * gridScale exponent := by
        apply Nat.mul_le_mul_right
        apply Nat.mul_le_mul_right
        exact Nat.pow_le_pow_right (by decide) (by omega)
    _ = Nat.pow 10 1 * (gridGap exponent * Nat.pow 10 (20 + k)) := by
        rw [gridGap_mul hi, Nat.add_comm (a + i), Decimal.ten_pow_add 1, Nat.mul_assoc,
          Nat.mul_assoc, Nat.mul_assoc]
    _ = Nat.pow 10 21 * gridGap exponent * Nat.pow 10 k := by
        rw [Decimal.ten_pow_add 20, Decimal.ten_pow_add 1 20]
        ac_rfl

/-- The shortest decimal of a magnitude has few digits, and few places in either direction. -/
theorem shortest_bounds (hpos : 0 < units) (hlimit : units < unitLimit) :
    (shortest units).1 < Nat.pow 10 22 ∧ -420 ≤ (shortest units).2 ∧
      (shortest units).2 ≤ 2098 := by
  obtain ⟨a, k, hleading, hk, ha, hfirst, hnext⟩ := leadingExponent_bounds hpos hlimit
  have hstop : 2 * gridGap (a - (20 + k : Nat)) < spacing units * gridScale (a - (20 + k : Nat)) :=
    gridGap_lt rfl hfirst
  obtain ⟨hlow, hhigh, hdigits⟩ := searchGrids_bounds hstop
    (show (a : Int) - (20 + k : Nat) ≤ leadingExponent units by omega) rfl
  have hquot := quotient_lt hlow hnext
  refine ⟨Nat.lt_of_le_of_lt hdigits (Nat.lt_of_le_of_lt (Nat.succ_le_of_lt hquot) (by decide)), ?_⟩
  clear hfirst hnext hstop hdigits hquot hlimit
  unfold shortest
  generalize
    searchGrids units (leadingExponent units + 1074).toNat (leadingExponent units) = found at *
  constructor <;> omega

end Digits

/-! ## Characters -/

theorem length_dropZeros_le (s : List Char) :
    (s.reverse.dropWhile (· == '0')).reverse.length ≤ s.length := by
  rw [List.length_reverse]
  exact Nat.le_trans (List.dropWhile_sublist _).length_le (Nat.le_of_eq List.length_reverse)

theorem length_positional_le {digits : List Char} {place : Int} (hlow : -4 < place)
    (hhigh : place ≤ 16) : (positional digits place).length ≤ digits.length + 18 := by
  unfold positional zeros
  split
  · simp only [List.length_append, List.length_cons, List.length_replicate]
    omega
  · split
    · simp only [List.length_append, List.length_cons, List.length_replicate, List.length_nil]
      omega
    · simp only [List.length_append, List.length_cons, List.length_take, List.length_drop]
      omega

theorem length_exponentText_le {exponent : Int} {k : Nat} (h : exponent.natAbs < Nat.pow 10 k)
    (hk : 0 < k) : (exponentText exponent).length ≤ k + 3 := by
  have hdigits := (Nat.length_toDigits_le_iff (b := 10) (by decide) hk).mpr h
  unfold exponentText zeros
  simp only [List.length_append, List.length_cons, List.length_replicate]
  omega

theorem length_scientific_le (digits : List Char) (exponent : Int) :
    (scientific digits exponent).length ≤ digits.length + 2 + (exponentText exponent).length := by
  unfold scientific
  split
  · simp only [List.length_cons, List.length_nil]
    omega
  · simp only [List.length_append, List.length_cons]
    omega
  · exact Nat.zero_le _

theorem length_decimalText_le {digits : Nat} {exponent : Int} (hdigits : digits < Nat.pow 10 22)
    (hlow : -420 ≤ exponent) (hhigh : exponent ≤ 2098) :
    (decimalText digits exponent).length ≤ 40 := by
  have hall := (Nat.length_toDigits_le_iff (b := 10) (k := 22) (by decide) (by decide)).mpr hdigits
  have hkept := length_dropZeros_le (Nat.toDigits 10 digits)
  unfold decimalText
  dsimp only
  split
  next hplace =>
    have hlength := @length_positional_le
      ((Nat.toDigits 10 digits).reverse.dropWhile (· == '0')).reverse _ hplace.1 hplace.2
    omega
  next =>
    have hlength := length_scientific_le
      ((Nat.toDigits 10 digits).reverse.dropWhile (· == '0')).reverse
      ((Nat.toDigits 10 digits).length + exponent - 1)
    have hsmall : ((Nat.toDigits 10 digits).length + exponent - 1).natAbs < Nat.pow 10 4 := by
      have hpow : Nat.pow 10 4 = 10000 := rfl
      omega
    have hexponent := length_exponentText_le hsmall (by decide)
    omega

theorem length_toChars_le (x : Binary64) : x.toChars.length ≤ 41 := by
  cases x with
  | nan => decide
  | infinite negative => cases negative <;> decide
  | finite negative units h =>
      have hmagnitude : (magnitudeText units).length ≤ 40 := by
        unfold magnitudeText
        split
        · decide
        next hne =>
          obtain ⟨hdigits, hlow, hhigh⟩ := shortest_bounds (Nat.pos_of_ne_zero hne) h.1
          exact length_decimalText_le hdigits hlow hhigh
      have hsign : (if negative then ['-'] else []).length ≤ 1 := by cases negative <;> decide
      rw [toChars, List.length_append]
      omega

/-! ## Whole numbers -/

theorem length_toString_le {i : Int} {k : Nat} (h : i.natAbs < Nat.pow 10 k) (hk : 0 < k) :
    (toString i).toList.length ≤ k + 1 := by
  have hdigits : (Nat.toDigits 10 i.natAbs).length ≤ k :=
    (Nat.length_toDigits_le_iff (by decide) hk).mpr h
  have hsign : (if i < 0 then ['-'] else []).length ≤ 1 := by
    split <;> decide
  rw [Decimal.toList_toString, List.length_append, Nat.add_comm k]
  exact Nat.add_le_add hsign hdigits

theorem natAbs_truncate (negative : Bool) (units : Nat) :
    (truncate negative units).natAbs = units / unitsPerOne := by
  unfold truncate signed
  split
  · exact Int.natAbs_neg _
  · rfl

theorem le_of_ofNat_eq {n k units : Nat} {negative : Bool} {hunits : Representable units}
    (hn : n < Nat.pow 2 k) (h : ofNat n = .finite negative units hunits) :
    units / unitsPerOne ≤ Nat.pow 2 k := by
  have hround : roundRatio (n * unitsPerOne) 1 ≤ Nat.pow 2 (k + 1074) := by
    apply roundRatio_le_two_pow
    rw [Nat.div_one]
    exact mul_unitsPerOne_lt hn
  rw [ofNat, ofRatio, ofUnits] at h
  split at h
  · obtain ⟨-, heq⟩ := Binary64.finite.inj h
    rw [heq, ← two_pow_mul_unitsPerOne] at hround
    exact Nat.div_le_of_le_mul (by rwa [Nat.mul_comm])
  · cases h

end ColumnFormula.Binary64

namespace ColumnFormula.Aggregate

open Binary64

variable {aggregate : Aggregate} {cells : List RawText} {x : Binary64} {text : String}

/-- The text of a result is short if a machine word counts the cells. -/
theorem length_display_le (happly : aggregate.apply cells = .ok x)
    (hlength : cells.length < Nat.pow 2 64) {integerResults : Bool}
    (h : aggregate.display integerResults x = .ok text) : text.toList.length ≤ 41 := by
  unfold display at h
  split at h
  · cases h
  · cases h
  next negative units hunits =>
    obtain rfl := Except.ok.inj h
    have hcount : (Cell.contents cells).length < Nat.pow 2 64 :=
      Nat.lt_of_le_of_lt (List.length_filterMap_le _ _) hlength
    have hle := le_of_ofNat_eq hcount (Except.ok.inj happly)
    refine Nat.le_trans (length_toString_le (k := 20) ?_ (by decide)) (by decide)
    rw [natAbs_truncate]
    exact Nat.lt_of_le_of_lt hle (by decide)
  next negative units hunits _ =>
    split at h
    next hsmall =>
      obtain rfl := Except.ok.inj h
      simp only [Bool.and_eq_true, isSmall, decide_eq_true_eq] at hsmall
      refine Nat.le_trans (length_toString_le (k := 16) ?_ (by decide)) (by decide)
      rw [natAbs_truncate]
      exact Nat.lt_trans ((Nat.div_lt_iff_lt_mul unitsPerOne_pos).mpr hsmall.2) (by decide)
    next =>
      obtain rfl := Except.ok.inj h
      rw [toText, String.toList_ofList]
      exact length_toChars_le _
  · obtain rfl := Except.ok.inj h
    rw [toText, String.toList_ofList]
    exact length_toChars_le _

end ColumnFormula.Aggregate
