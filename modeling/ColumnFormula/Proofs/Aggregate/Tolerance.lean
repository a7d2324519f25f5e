import ColumnFormula.Proofs.Number.Range
import ColumnFormula.Proofs.Sheet.Passes
import ColumnFormula.Proofs.Text.Trim

/-!
# Cells that are passed over

A column is reduced as if the cells that hold no number were not there, and counted as if those
without content were not there. So such cells may be put in and taken out anywhere, and only a
column without any number has no sum, mean, least or greatest number.
-/

namespace ColumnFormula

namespace Cell

/-- Cells without content: there is nothing, or it cannot be decoded, or all of it is blank. -/
inductive IsEmpty : RawText → Prop
  | absent : IsEmpty .absent
  | undecodable {bytes : List UInt8} : Text.Utf8.decode? bytes = none → IsEmpty (.bytes bytes)
  | blank {cell : RawText} {s : List Char} :
      cell.chars? = some s → (∀ c ∈ s, Text.isBlank c = true) → IsEmpty cell

theorem content?_eq_none_iff {cell : RawText} : content? cell = none ↔ IsEmpty cell := by
  constructor
  · intro hnone
    unfold content? at hnone
    split at hnone
    next hchars =>
      cases cell with
      | absent => exact .absent
      | text s => cases hchars
      | bytes b => exact .undecodable hchars
    next s hchars =>
      split at hnone
      next hblank => exact .blank hchars (Text.trimBy_eq_nil_iff.mp (List.isEmpty_iff.mp hblank))
      next => cases hnone
  · rintro (_ | hundecodable | ⟨hchars, hblank⟩)
    · rfl
    · rw [content?, RawText.chars?, hundecodable]
    · rw [content?, hchars]
      dsimp only
      rw [Text.strip, Text.trimBy_eq_nil_iff.mpr hblank]
      rfl

theorem number?_of_isEmpty {cell : RawText} (h : IsEmpty cell) : number? cell = none := by
  rw [number?, content?_eq_none_iff.mpr h, Option.bind_none]

variable (before after : List RawText) {cell : RawText}

theorem numbers_insert (h : number? cell = none) :
    numbers (before ++ cell :: after) = numbers (before ++ after) := by
  simp [numbers, h]

theorem contents_insert (h : IsEmpty cell) :
    contents (before ++ cell :: after) = contents (before ++ after) := by
  simp [contents, content?_eq_none_iff.mpr h]

theorem length_contents_insert (h : ¬ IsEmpty cell) :
    (contents (before ++ cell :: after)).length = (contents (before ++ after)).length + 1 := by
  obtain ⟨content, hcontent⟩ := Option.ne_none_iff_exists'.mp (mt content?_eq_none_iff.mp h)
  simp [contents, hcontent]
  omega

end Cell

namespace Aggregate

variable {aggregate : Aggregate} {cells others : List RawText}

/-- An aggregate other than the count depends on the numbers of a column only. -/
theorem apply_of_ne_count (h : aggregate ≠ .count) (cells : List RawText) :
    aggregate.apply cells =
      match Cell.numbers cells with
      | x :: xs => .ok (aggregate.reduce x xs)
      | [] => .error (.noNumericValues aggregate.name) := by
  cases aggregate with
  | count => exact absurd rfl h
  | sum => cases hnumbers : Cell.numbers cells <;> simp [apply, hnumbers]
  | avg => cases hnumbers : Cell.numbers cells <;> simp [apply, hnumbers]
  | min => cases hnumbers : Cell.numbers cells <;> simp [apply, hnumbers]
  | max => cases hnumbers : Cell.numbers cells <;> simp [apply, hnumbers]

theorem apply_congr (h : aggregate ≠ .count) (hnumbers : Cell.numbers cells = Cell.numbers others) :
    aggregate.apply cells = aggregate.apply others := by
  rw [apply_of_ne_count h, apply_of_ne_count h, hnumbers]

/-- A cell without content makes no difference to any aggregate. -/
theorem apply_insert_empty (aggregate : Aggregate) (before after : List RawText) {cell : RawText}
    (h : Cell.IsEmpty cell) :
    aggregate.apply (before ++ cell :: after) = aggregate.apply (before ++ after) := by
  by_cases hcount : aggregate = .count
  · rw [hcount, apply_count, apply_count, Cell.contents_insert before after h]
  · exact apply_congr hcount (Cell.numbers_insert before after (Cell.number?_of_isEmpty h))

/-- A column is reduced to its numbers, in order. Without any number all aggregates but the count
fail, each under its own name; with numbers they do not, and the count never does. Cells without
content make no difference to any aggregate, and cells without a number make none to the others;
any cell with content, number or not, raises the count by one, and by exactly one as long as whole
numbers are not rounded. -/
theorem apply_tolerates (cells : List RawText) :
    let numbers := cells.filterMap Cell.number?
    (numbers ≠ [] →
      Aggregate.sum.apply cells = .ok (numbers.foldl Binary64.add .zero) ∧
      Aggregate.avg.apply cells =
        .ok ((numbers.foldl Binary64.add .zero).div (.ofNat numbers.length))) ∧
    (∀ aggregate : Aggregate, aggregate ≠ .count →
      (numbers = [] → aggregate.apply cells = .error (.noNumericValues aggregate.name)) ∧
      (numbers ≠ [] → ∃ value, aggregate.apply cells = .ok value)) ∧
    Aggregate.count.apply cells = .ok (.ofNat (Cell.contents cells).length) ∧
    ∀ before cell after, cells = before ++ after →
      let inserted := before ++ cell :: after
      (Cell.IsEmpty cell ∨ Cell.number? cell = none →
        ∀ aggregate : Aggregate, aggregate ≠ .count →
          aggregate.apply inserted = aggregate.apply cells) ∧
      (Cell.IsEmpty cell → Aggregate.count.apply inserted = Aggregate.count.apply cells) ∧
      (¬ Cell.IsEmpty cell →
        let count := (Cell.contents cells).length
        Aggregate.count.apply inserted = .ok (.ofNat (count + 1)) ∧
        (count < Nat.pow 2 53 → (Binary64.ofNat (count + 1)).signedUnits =
          (Binary64.ofNat count).signedUnits + Binary64.unitsPerOne)) := by
  intro numbers
  refine ⟨?_, ?_, apply_count cells, ?_⟩
  · intro hne
    obtain ⟨x, xs, hnumbers⟩ := List.exists_cons_of_ne_nil hne
    have hcells : Cell.numbers cells = x :: xs := hnumbers
    rw [apply_of_ne_count (by decide), apply_of_ne_count (by decide), hcells, hnumbers]
    exact ⟨rfl, rfl⟩
  · intro aggregate hcount
    have hnumbers : Cell.numbers cells = numbers := rfl
    rw [apply_of_ne_count hcount, hnumbers]
    constructor
    · intro hnil
      rw [hnil]
    · intro hne
      obtain ⟨x, xs, hcons⟩ := List.exists_cons_of_ne_nil hne
      rw [hcons]
      exact ⟨_, rfl⟩
  · rintro before cell after rfl
    refine ⟨?_, apply_insert_empty .count before after, ?_⟩
    · rintro (hempty | hnumber) aggregate hcount
      · exact apply_insert_empty aggregate before after hempty
      · exact apply_congr hcount (Cell.numbers_insert before after hnumber)
    · intro hcontent
      refine ⟨?_, fun hsmall => ?_⟩
      · rw [apply_count, Cell.length_contents_insert before after hcontent]
      · rw [Binary64.signedUnits_ofNat hsmall, Binary64.signedUnits_ofNat (Nat.le_of_lt hsmall),
          Nat.succ_mul, Int.natCast_add]

end Aggregate

end ColumnFormula
