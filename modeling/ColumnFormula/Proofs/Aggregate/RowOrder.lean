import ColumnFormula.Proofs.Aggregate.Range
import ColumnFormula.Proofs.Aggregate.WholeSums

/-!
# The order of the rows

The least number of a column is one of its numbers that none of them is below, and the greatest is
one that none is above. A column may hold both zeros, of which neither is less than the other, so
which number is taken may depend on the order of the rows; but its value does not, and nothing
else is shown of a result where whole numbers are shown as such. The count depends on the number
of cells alone.
-/

namespace ColumnFormula

namespace Binary64

variable {x y : Binary64}

/-- Only zeros differ and have the same value. -/
theorem eq_or_isZero_of_toRat_eq (hx : x.isFinite = true) (hy : y.isFinite = true)
    (h : x.toRat = y.toRat) : x = y ∨ (x.isZero = true ∧ y.isZero = true) := by
  obtain ⟨m, a, ha, rfl⟩ := exists_eq_finite hx
  obtain ⟨n, b, hb, rfl⟩ := exists_eq_finite hy
  have hunits := toRat_eq_iff.mp h
  obtain rfl : a = b := by
    rw [← natAbs_signedUnits m a ha, hunits, natAbs_signedUnits]
  rcases Nat.eq_zero_or_pos a with rfl | hpos
  · exact .inr ⟨rfl, rfl⟩
  · left
    have hsign : m = n := by
      cases m <;> cases n <;> simp [signedUnits, signed] at hunits ⊢ <;> omega
    rw [hsign]

end Binary64

namespace Aggregate

open Binary64

variable {aggregate : Aggregate} {x y : Binary64} {xs ys : List Binary64}

/-! ## Extremes -/

/-- Whether a number is one of some numbers, of which none has a lesser key. -/
def IsExtreme (key : Binary64 → ℚ) (x : Binary64) (xs : List Binary64) : Prop :=
  x ∈ xs ∧ ∀ y ∈ xs, key x ≤ key y

theorem IsExtreme.key_eq {key : Binary64 → ℚ} (hx : IsExtreme key x xs) (hy : IsExtreme key y ys)
    (hperm : xs.Perm ys) : key x = key y :=
  le_antisymm (hx.2 y (hperm.mem_iff.mpr hy.1)) (hy.2 x (hperm.mem_iff.mp hx.1))

/-- Numbers that are replaced by every better one are extreme at the end. -/
theorem isExtreme_foldl (better : Binary64 → Binary64 → Bool) {key : Binary64 → ℚ}
    (hbetter : ∀ y ∈ x :: xs, ∀ z ∈ x :: xs, better y z = true ↔ key y < key z) :
    IsExtreme key (xs.foldl (fun current x => if better x current then x else current) x)
      (x :: xs) := by
  refine ⟨foldl_choice_mem better x xs, ?_⟩
  induction xs generalizing x with
  | nil => simp
  | cons y xs ih =>
      rw [List.foldl_cons]
      -- The one that is kept of the first two has the lesser key, and stands for both.
      have hkept : (if better y x then y else x) ∈ x :: y :: xs ∧
          key (if better y x then y else x) ≤ key x ∧
          key (if better y x then y else x) ≤ key y := by
        have hiff := hbetter y (by simp) x (by simp)
        split
        next hlt => exact ⟨by simp, (hiff.mp hlt).le, le_refl _⟩
        next hnot => exact ⟨by simp, le_refl _, not_lt.mp (mt hiff.mpr hnot)⟩
      obtain ⟨hmem, hx, hy⟩ := hkept
      have hsubset : ∀ z ∈ (if better y x then y else x) :: xs, z ∈ x :: y :: xs := by
        intro z hz
        rcases List.mem_cons.mp hz with rfl | htail
        · exact hmem
        · exact List.mem_cons_of_mem _ (List.mem_cons_of_mem _ htail)
      have hfold := ih fun z hz w hw => hbetter z (hsubset z hz) w (hsubset w hw)
      have hfirst := hfold _ List.mem_cons_self
      intro z hz
      rcases List.mem_cons.mp hz with rfl | hrest
      · exact hfirst.trans hx
      rcases List.mem_cons.mp hrest with rfl | htail
      · exact hfirst.trans hy
      · exact hfold z (List.mem_cons_of_mem _ htail)

/-- What an extreme is the least by. -/
def extremeKey : Aggregate → Binary64 → ℚ
  | .max, x => -x.toRat
  | _, x => x.toRat

theorem extremeKey_eq_iff (aggregate : Aggregate) :
    aggregate.extremeKey x = aggregate.extremeKey y ↔ x.toRat = y.toRat := by
  cases aggregate <;> simp [extremeKey]

theorem isExtreme_reduce (hkind : aggregate = .min ∨ aggregate = .max)
    (hfinite : ∀ y ∈ x :: xs, y.isFinite = true) :
    IsExtreme aggregate.extremeKey (aggregate.reduce x xs) (x :: xs) := by
  rcases hkind with rfl | rfl
  · apply isExtreme_foldl fun x current => x.lt current
    intro y hy z hz
    exact lt_iff_toRat_lt (hfinite y hy) (hfinite z hz)
  · apply isExtreme_foldl fun x current => current.lt x
    intro y hy z hz
    rw [lt_iff_toRat_lt (hfinite z hz) (hfinite y hy), extremeKey, extremeKey, neg_lt_neg_iff]

/-- An extreme of a column is an extreme of its numbers. -/
theorem isExtreme_of_apply {cells : List RawText} {value : Binary64}
    (hkind : aggregate = .min ∨ aggregate = .max) (h : aggregate.apply cells = .ok value) :
    IsExtreme aggregate.extremeKey value (Cell.numbers cells) := by
  rcases apply_cases h with ⟨rfl, -⟩ | ⟨-, x, xs, hnumbers, rfl⟩
  · rcases hkind with hcount | hcount <;> cases hcount
  · rw [hnumbers]
    apply isExtreme_reduce hkind
    intro y hy
    rw [← hnumbers] at hy
    exact Cell.isFinite_of_mem_numbers hy

/-! ## What is shown -/

theorem display_of_isZero (hkind : aggregate ≠ .count) (hx : x.isFinite = true)
    (h : x.isZero = true) : aggregate.display true x = .ok (toString (0 : Int)) := by
  apply display_of_isWhole hkind _ (by decide)
  rw [isWhole_iff_toRat, toRat_of_isZero h, Int.cast_zero]
  exact ⟨hx, rfl⟩

/-- Numbers of the same value look alike where whole numbers are shown as such. -/
theorem display_congr (hkind : aggregate ≠ .count) (hx : x.isFinite = true)
    (hy : y.isFinite = true) (h : x.toRat = y.toRat) :
    aggregate.display true x = aggregate.display true y := by
  rcases eq_or_isZero_of_toRat_eq hx hy h with rfl | ⟨hzero, hzero'⟩
  · rfl
  · rw [display_of_isZero hkind hx hzero, display_of_isZero hkind hy hzero']

/-! ## Columns in another order -/

variable {cells others : List RawText}

theorem apply_count_perm (horder : cells.Perm others) :
    Aggregate.count.apply cells = Aggregate.count.apply others := by
  rw [apply_count, apply_count, Cell.contents, Cell.contents,
    (horder.filterMap Cell.content?).length_eq]

/-- The extremes of a column in two orders have the same value, or there is none. -/
theorem extreme_perm (hkind : aggregate = .min ∨ aggregate = .max) (horder : cells.Perm others) :
    (aggregate.apply cells = .error (.noNumericValues aggregate.name) ∧
      aggregate.apply others = .error (.noNumericValues aggregate.name)) ∨
    ∃ value other, aggregate.apply cells = .ok value ∧ aggregate.apply others = .ok other ∧
      value.toRat = other.toRat := by
  have hnumbers : (Cell.numbers cells).Perm (Cell.numbers others) :=
    horder.filterMap Cell.number?
  have hcount : aggregate ≠ .count := by
    rintro rfl
    rcases hkind with h | h <;> cases h
  have hcells := apply_of_ne_count hcount cells
  have hothers := apply_of_ne_count hcount others
  cases hfirst : Cell.numbers cells with
  | nil =>
      have hempty : Cell.numbers others = [] := (hfirst ▸ hnumbers).nil_eq.symm
      rw [hfirst] at hcells
      rw [hempty] at hothers
      exact .inl ⟨hcells, hothers⟩
  | cons x xs =>
      cases hsecond : Cell.numbers others with
      | nil =>
          rw [hfirst, hsecond] at hnumbers
          exact absurd hnumbers.eq_nil (List.cons_ne_nil x xs)
      | cons y ys =>
          rw [hfirst] at hcells
          rw [hsecond] at hothers
          refine .inr ⟨_, _, hcells, hothers, aggregate.extremeKey_eq_iff.mp ?_⟩
          exact (isExtreme_of_apply hkind hcells).key_eq (isExtreme_of_apply hkind hothers) hnumbers

/-- The least and the greatest number of a column and the count of its cells do not depend on the
order of the rows: either there is none, for the same reason, or the same is shown of it, which is
a text unless more cells are counted than a machine word counts. The least number is the number of
a cell, and not above the number of any; the greatest is the number of a cell, and not below the
number of any. -/
theorem apply_perm (horder : cells.Perm others) :
    (∀ aggregate : Aggregate, aggregate = .min ∨ aggregate = .max ∨ aggregate = .count →
      (∃ error, aggregate.apply cells = .error error ∧ aggregate.apply others = .error error) ∨
      ∃ value other, aggregate.apply cells = .ok value ∧ aggregate.apply others = .ok other ∧
        aggregate.display true value = aggregate.display true other ∧
        ((aggregate = .count → cells.length < Nat.pow 2 64) →
          ∃ text, aggregate.display true value = .ok text)) ∧
    (∀ value, Aggregate.min.apply cells = .ok value →
      (∃ cell ∈ cells, Cell.number? cell = some value) ∧
      ∀ cell ∈ cells, ∀ x, Cell.number? cell = some x → value.toRat ≤ x.toRat) ∧
    ∀ value, Aggregate.max.apply cells = .ok value →
      (∃ cell ∈ cells, Cell.number? cell = some value) ∧
      ∀ cell ∈ cells, ∀ x, Cell.number? cell = some x → x.toRat ≤ value.toRat := by
  refine ⟨?_, ?_, ?_⟩
  · intro aggregate hkind
    by_cases hcount : aggregate = .count
    · subst hcount
      refine .inr ⟨_, _, apply_count cells, ?_, rfl, fun hlength => ?_⟩
      · rw [← apply_count_perm horder, apply_count]
      · exact exists_display_of_apply (apply_count cells) (hlength rfl) true
    · have hextreme : aggregate = .min ∨ aggregate = .max := by
        rcases hkind with hmin | hmax | h
        · exact .inl hmin
        · exact .inr hmax
        · exact absurd h hcount
      rcases extreme_perm hextreme horder with hnone | ⟨value, other, hvalue, hother, hsame⟩
      · exact .inl ⟨_, hnone⟩
      · have hfinite := Cell.isFinite_of_mem_numbers (isExtreme_of_apply hextreme hvalue).1
        have hfinite' := Cell.isFinite_of_mem_numbers (isExtreme_of_apply hextreme hother).1
        refine .inr ⟨value, other, hvalue, hother, display_congr hcount hfinite hfinite' hsame, ?_⟩
        exact fun _ => exists_display true fun h => absurd h hcount
  · intro value hvalue
    obtain ⟨hmem, hleast⟩ := isExtreme_of_apply (.inl rfl) hvalue
    exact ⟨List.mem_filterMap.mp hmem, fun cell hcell x hx =>
      hleast x (List.mem_filterMap.mpr ⟨cell, hcell, hx⟩)⟩
  · intro value hvalue
    obtain ⟨hmem, hgreatest⟩ := isExtreme_of_apply (.inr rfl) hvalue
    exact ⟨List.mem_filterMap.mp hmem, fun cell hcell x hx =>
      neg_le_neg_iff.mp (hgreatest x (List.mem_filterMap.mpr ⟨cell, hcell, hx⟩))⟩

/-- Which zero is the least number depends on the order of the rows; what is shown does not. -/
theorem apply_perm_zeros :
    let cells : List RawText := [.text "0", .text " x", .text "-0.0", .absent]
    let others : List RawText := [.text "-0.0", .absent, .text "0", .text " x"]
    cells.Perm others ∧ Aggregate.min.apply cells = .ok .zero ∧
      Aggregate.min.apply others = .ok Binary64.zero.neg ∧
      Aggregate.min.display true .zero = Aggregate.min.display true Binary64.zero.neg := by
  intro cells others
  have horder : cells.Perm others := by decide
  have hcells : Aggregate.min.apply cells = .ok .zero := by decide +kernel
  have hothers : Aggregate.min.apply others = .ok Binary64.zero.neg := by decide +kernel
  refine ⟨horder, hcells, hothers, ?_⟩
  rcases (apply_perm horder).1 .min (.inl rfl) with ⟨error, herror, -⟩ | ⟨_, _, hvalue, hother, hsame, -⟩
  · rw [hcells] at herror
    cases herror
  · obtain rfl := Except.ok.inj (hcells.symm.trans hvalue)
    obtain rfl := Except.ok.inj (hothers.symm.trans hother)
    exact hsame

end Aggregate

end ColumnFormula
