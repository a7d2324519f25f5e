import Mathlib.Algebra.BigOperators.Group.List.Basic
import ColumnFormula.Proofs.Aggregate.ReadBack
import ColumnFormula.Proofs.Aggregate.Tolerance
import ColumnFormula.Proofs.Number.Whole

/-!
# Sums of whole numbers

As long as the sizes of the whole numbers in a column add up to less than `2 ^ 53`, no total on the
way from the first number to the last is rounded, whatever the order of the rows. So their sum is
exact, and it is shown in digits.
-/

namespace ColumnFormula

open Binary64

/-! ## The whole numbers of a column -/

namespace Cell

/-- Whether a cell holds a number. -/
def isNumeric (cell : RawText) : Bool :=
  (number? cell).isSome

/-- The numbers of cells that denote small whole numbers are these whole numbers. -/
theorem forall₂_isWhole {cells : List RawText} {ns : List Int}
    (h : List.Forall₂ (fun cell n => Denotes cell (n : Int)) (cells.filter isNumeric) ns)
    (hsmall : ∀ n ∈ ns, n.natAbs ≤ Nat.pow 2 53) : List.Forall₂ IsWhole (numbers cells) ns := by
  induction cells generalizing ns with
  | nil =>
      cases h
      exact .nil
  | cons cell cells ih =>
      cases hnumber : number? cell with
      | none =>
          rw [List.filter_cons_of_neg (by simp [isNumeric, hnumber])] at h
          rw [numbers, List.filterMap_cons_none hnumber]
          exact ih h hsmall
      | some x =>
          rw [List.filter_cons_of_pos (by simp [isNumeric, hnumber])] at h
          rw [numbers, List.filterMap_cons_some hnumber]
          cases h with
          | cons hcell hcells =>
              rw [List.forall_mem_cons] at hsmall
              exact .cons (hcell.isWhole hnumber hsmall.1) (ih hcells hsmall.2)

end Cell

namespace Aggregate

variable {aggregate : Aggregate} {x start : Binary64} {xs : List Binary64} {n s : Int}
  {ns : List Int}

/-! ## Totals -/

/-- No total is rounded on the way: its size is never more than the sizes that went into it. -/
theorem isWhole_foldl_add (hstart : start.IsWhole s) (hxs : List.Forall₂ IsWhole xs ns)
    (hsum : s.natAbs + (ns.map Int.natAbs).sum ≤ Nat.pow 2 53) :
    (xs.foldl add start).IsWhole (s + ns.sum) := by
  induction hxs generalizing start s with
  | nil =>
      rw [List.sum_nil, Int.add_zero]
      exact hstart
  | @cons x n xs ns hx hxs ih =>
      rw [List.map_cons, List.sum_cons] at hsum
      rw [List.foldl_cons, List.sum_cons, ← Int.add_assoc]
      exact ih (hstart.add hx (by omega)) (by omega)

theorem isWhole_zero : Binary64.zero.IsWhole 0 :=
  ⟨rfl, (Int.zero_mul _).symm⟩

theorem isWhole_total (hxs : List.Forall₂ IsWhole xs ns)
    (hsum : (ns.map Int.natAbs).sum ≤ Nat.pow 2 53) : (total xs).IsWhole ns.sum := by
  have hfold := isWhole_foldl_add isWhole_zero hxs (by simpa using hsum)
  rwa [Int.zero_add] at hfold

theorem natAbs_sum_le (ns : List Int) : ns.sum.natAbs ≤ (ns.map Int.natAbs).sum := by
  induction ns with
  | nil => exact Nat.le_refl _
  | cons n ns ih =>
      rw [List.map_cons, List.sum_cons, List.sum_cons]
      omega

/-! ## What is shown -/

theorem truncate_of_isWhole {negative : Bool} {units : Nat} {h : Representable units}
    (hx : (finite negative units h).IsWhole n) :
    units = n.natAbs * unitsPerOne ∧ truncate negative units = n := by
  have hone : (unitsPerOne : Int) ≠ 0 := by exact_mod_cast unitsPerOne_pos.ne'
  have hunits : units = n.natAbs * unitsPerOne := by
    rw [← natAbs_signedUnits negative units h, hx.2, Int.natAbs_mul, Int.natAbs_natCast]
  have hsigned : signed negative units = signed negative n.natAbs * unitsPerOne := by
    rw [hunits, signed_mul]
  refine ⟨hunits, ?_⟩
  rw [truncate, hunits, Nat.mul_div_cancel _ unitsPerOne_pos]
  exact Int.eq_of_mul_eq_mul_right hone (hsigned.symm.trans hx.2)

/-- A small whole number is shown in digits, a zero without its sign. -/
theorem display_of_isWhole (hkind : aggregate ≠ .count) (hx : x.IsWhole n)
    (h : n.natAbs < Nat.pow 2 53) : aggregate.display true x = .ok (toString n) := by
  obtain ⟨negative, units, hunits, rfl⟩ := exists_eq_finite hx.1
  obtain ⟨heq, htruncate⟩ := truncate_of_isWhole hx
  have hinteger : (finite negative units hunits).isInteger = true := by
    rw [isInteger, heq, Nat.mul_mod_left]
    rfl
  have hsmall : isSmall units = true := by
    rw [isSmall, heq]
    exact decide_eq_true (Nat.mul_lt_mul_of_pos_right h unitsPerOne_pos)
  rw [display_finite hkind, hinteger, hsmall, htruncate]
  rfl

/-! ## The sum of a column -/

/-- Sums of whole numbers are exact. If the numeric cells of a column denote whole numbers, in any
spelling, and their sizes add up to less than `2 ^ 53`, then their sum is the sum of the column and
is shown in digits, in whatever order the numeric cells stand and whatever stands between them. -/
theorem sum_exact {cells : List RawText} {ns : List Int}
    (hcells : List.Forall₂ (fun cell n => Cell.Denotes cell (n : Int))
      (cells.filter Cell.isNumeric) ns)
    (hne : ns ≠ []) (hsum : (ns.map Int.natAbs).sum < Nat.pow 2 53) (others : List RawText)
    (horder : (others.filter Cell.isNumeric).Perm (cells.filter Cell.isNumeric)) :
    ∃ value, Aggregate.sum.apply others = .ok value ∧ value.toRat = ns.sum ∧
      Aggregate.sum.display true value = .ok (toString ns.sum) := by
  -- The other order of the cells is an order of the whole numbers as well.
  obtain ⟨ms, hothers, hperm⟩ := List.perm_comp_forall₂ horder hcells
  have hsizes : (ms.map Int.natAbs).sum = (ns.map Int.natAbs).sum :=
    (hperm.map Int.natAbs).sum_eq
  have hsmall : ∀ m ∈ ms, m.natAbs ≤ Nat.pow 2 53 := by
    intro m hm
    have hle : m.natAbs ≤ (ms.map Int.natAbs).sum :=
      List.single_le_sum (fun _ _ => Nat.zero_le _) _ (List.mem_map_of_mem hm)
    omega
  have hothers' := Cell.forall₂_isWhole hothers hsmall
  have hwhole := isWhole_total hothers' (by omega)
  rw [hperm.sum_eq] at hwhole
  have hshort : ns.sum.natAbs < Nat.pow 2 53 :=
    Nat.lt_of_le_of_lt (natAbs_sum_le ns) hsum
  refine ⟨total (Cell.numbers others), ?_, (isWhole_iff_toRat.mp hwhole).2,
    display_of_isWhole (by decide) hwhole hshort⟩
  have hnumbers : Cell.numbers others ≠ [] := by
    intro hnil
    rw [hnil] at hothers'
    exact hne (List.perm_nil.mp (List.forall₂_nil_left_iff.mp hothers' ▸ hperm).symm)
  obtain ⟨x, xs, hcons⟩ := List.exists_cons_of_ne_nil hnumbers
  rw [apply_of_ne_count (by decide), hcons]
  rfl

/-- Whole numbers spelled in different ways, and added up in another order than they are given. -/
theorem sum_exact_spellings :
    let cells : List RawText := [.text " 7", .text "+7.0", .text "x", .text "-7e3", .text "-0"]
    let others : List RawText :=
      [.text "-0", .absent, .text "-7e3", .text "+7.0", .bytes [0xFF], .text " 7"]
    let ns : List Int := [7, 7, -7000, 0]
    (List.Forall₂ (fun cell n => Cell.Denotes cell (n : Int)) (cells.filter Cell.isNumeric) ns ∧
        ns ≠ [] ∧ (ns.map Int.natAbs).sum < Nat.pow 2 53 ∧
        (others.filter Cell.isNumeric).Perm (cells.filter Cell.isNumeric)) ∧
      ∃ value, Aggregate.sum.apply others = .ok value ∧ value.toRat = (-6986 : Int) ∧
        Aggregate.sum.display true value = .ok "-6986" := by
  intro cells others ns
  have hnumeric : cells.filter Cell.isNumeric =
      [.text " 7", .text "+7.0", .text "-7e3", .text "-0"] := by decide +kernel
  have hcells : List.Forall₂ (fun cell n => Cell.Denotes cell (n : Int))
      (cells.filter Cell.isNumeric) ns := by
    rw [hnumeric]
    refine .cons ?_ (.cons ?_ (.cons ?_ (.cons ?_ .nil)))
    · exact Cell.denotes_iff.mpr ⟨_, ⟨false, 7, 0⟩, by rfl, by decide, by
        norm_num [Decimal.value, signFactor]⟩
    · exact Cell.denotes_iff.mpr ⟨_, ⟨false, 70, -1⟩, by rfl, by decide, by
        norm_num [Decimal.value, signFactor]⟩
    · exact Cell.denotes_iff.mpr ⟨_, ⟨true, 7, 3⟩, by rfl, by decide, by
        norm_num [Decimal.value, signFactor]⟩
    · exact Cell.denotes_iff.mpr ⟨_, ⟨true, 0, 0⟩, by rfl, by decide, by
        norm_num [Decimal.value, signFactor]⟩
  have hsum : (ns.map Int.natAbs).sum < Nat.pow 2 53 := by decide
  have horder : (others.filter Cell.isNumeric).Perm (cells.filter Cell.isNumeric) := by
    decide +kernel
  exact ⟨⟨hcells, by decide, hsum, horder⟩, sum_exact hcells (by decide) hsum others horder⟩

end Aggregate

end ColumnFormula
