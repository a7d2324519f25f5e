import Mathlib.Data.List.Induction
import ColumnFormula.Proofs.CommandLine.Aggregate
import ColumnFormula.Proofs.Number.Range

/-!
# Results that stay in range

The numbers of a column are finite, and so are the least and the greatest of them and every
count. A sum is finite, and with it the mean, exactly if the range is never left on the way from
the first number to the last: an infinite total stays infinite, whatever is added to it later.
The answer of the command is JSON exactly for finite results.
-/

namespace ColumnFormula

open Binary64

/-- A cell is no number if its numeral is out of range. -/
theorem Cell.isFinite_of_mem_numbers {cells : List RawText} {x : Binary64}
    (h : x ∈ Cell.numbers cells) : x.isFinite = true := by
  obtain ⟨cell, -, hnumber⟩ := List.mem_filterMap.mp h
  obtain ⟨s, -, hparse⟩ := Option.bind_eq_some_iff.mp hnumber
  unfold Cell.parseNumber? at hparse
  split at hparse
  · cases hparse
  · dsimp only at hparse
    split at hparse
    next hfinite =>
      obtain rfl := Option.some.inj hparse
      exact hfinite
    next => cases hparse

namespace Aggregate

variable {aggregate : Aggregate} {cells : List RawText} {value x y : Binary64}
  {xs : List Binary64}

/-! ## Totals -/

/-- Whether adding up some numbers never leaves the range: at no number is the exact sum of the
total so far and this number rounded to an infinity. -/
def StaysInRange (xs : List Binary64) : Prop :=
  ∀ front y, front ++ [y] <+: xs →
    ((total front).signedUnits + y.signedUnits).natAbs < overflowUnits

theorem total_concat (xs : List Binary64) (y : Binary64) :
    total (xs ++ [y]) = (total xs).add y := by
  rw [total, List.foldl_append, List.foldl_cons, List.foldl_nil, total]

theorem staysInRange_concat :
    StaysInRange (xs ++ [y]) ↔
      StaysInRange xs ∧ ((total xs).signedUnits + y.signedUnits).natAbs < overflowUnits := by
  constructor
  · intro h
    refine ⟨?_, h xs y List.prefix_rfl⟩
    intro front z hfront
    exact h front z (hfront.trans (List.prefix_append xs [y]))
  · rintro ⟨hxs, hy⟩ front z hfront
    rcases List.prefix_concat_iff.mp hfront with heq | hbelow
    · obtain ⟨rfl, rfl⟩ := List.append_singleton_inj.mp heq
      exact hy
    · exact hxs front z hbelow

/-- A total of finite numbers is finite if it never left the range. -/
theorem isFinite_total_iff (hxs : ∀ x ∈ xs, x.isFinite = true) :
    (total xs).isFinite = true ↔ StaysInRange xs := by
  induction xs using List.reverseRecOn with
  | nil => exact iff_of_true rfl (by simp [StaysInRange])
  | append_singleton xs y ih =>
      rw [List.forall_mem_append] at hxs
      have hy : y.isFinite = true := hxs.2 y List.mem_cons_self
      rw [total_concat, isFinite_add_iff hy, ih hxs.1, staysInRange_concat]

theorem total_ne_nan (hxs : ∀ x ∈ xs, x.isFinite = true) : total xs ≠ .nan := by
  induction xs using List.reverseRecOn with
  | nil => nofun
  | append_singleton xs y ih =>
      rw [List.forall_mem_append] at hxs
      rw [total_concat]
      exact add_ne_nan (ih hxs.1) (hxs.2 y List.mem_cons_self)

/-! ## Extremes -/

theorem foldl_choice_mem (better : Binary64 → Binary64 → Bool) (x : Binary64)
    (xs : List Binary64) :
    xs.foldl (fun current x => if better x current then x else current) x ∈ x :: xs := by
  induction xs generalizing x with
  | nil => exact List.mem_cons_self
  | cons y xs ih =>
      rw [List.foldl_cons]
      split
      · exact List.mem_cons_of_mem _ (ih y)
      · rcases List.mem_cons.mp (ih x) with heq | hmem
        · rw [heq]
          exact List.mem_cons_self
        · exact List.mem_cons_of_mem _ (List.mem_cons_of_mem _ hmem)

theorem least_mem (x : Binary64) (xs : List Binary64) : least x xs ∈ x :: xs :=
  foldl_choice_mem (fun x current => x.lt current) x xs

theorem greatest_mem (x : Binary64) (xs : List Binary64) : greatest x xs ∈ x :: xs :=
  foldl_choice_mem (fun x current => current.lt x) x xs

/-! ## Results -/

/-- What a result may be: a count, or what the numbers of the column are reduced to. -/
theorem apply_cases (h : aggregate.apply cells = .ok value) :
    (aggregate = .count ∧ value = .ofNat (Cell.contents cells).length) ∨
    (aggregate ≠ .count ∧
      ∃ x xs, Cell.numbers cells = x :: xs ∧ value = aggregate.reduce x xs) := by
  unfold apply at h
  split at h
  · exact .inl ⟨rfl, (Except.ok.inj h).symm⟩
  next x xs hcount hnumbers =>
    exact .inr ⟨hcount, x, xs, hnumbers, (Except.ok.inj h).symm⟩
  · cases h

/-- Whether a result stays in range is a matter of sums alone. -/
theorem reduce_range (hcount : aggregate ≠ .count) (hxs : ∀ y ∈ x :: xs, y.isFinite = true)
    (hlength : (x :: xs).length < Nat.pow 2 64) :
    aggregate.reduce x xs ≠ .nan ∧ ((aggregate.reduce x xs).isFinite = true ↔
      (aggregate = .sum ∨ aggregate = .avg → StaysInRange (x :: xs))) := by
  have hmem : ∀ y ∈ x :: xs, y ≠ .nan ∧ y.isFinite = true := by
    intro y hy
    refine ⟨?_, hxs y hy⟩
    rintro rfl
    cases hxs _ hy
  have htotal := isFinite_total_iff hxs
  have hnan := total_ne_nan hxs
  cases aggregate with
  | count => exact absurd rfl hcount
  | sum => simpa [reduce] using ⟨hnan, htotal⟩
  | avg =>
      obtain ⟨units, hunits, hofNat, hone⟩ :=
        exists_ofNat (Nat.succ_pos xs.length) hlength (by decide)
      have hpos : 0 < units := Nat.lt_of_lt_of_le unitsPerOne_pos hone
      rw [reduce, List.length_cons, hofNat, isFinite_div_iff hone]
      simpa using ⟨div_ne_nan hnan hpos, htotal⟩
  | min => simpa [reduce] using hmem _ (least_mem x xs)
  | max => simpa [reduce] using hmem _ (greatest_mem x xs)

end Aggregate

/-! ## Answers in JSON -/

namespace Json

/-- Whether a text is a number in JSON that is not written as an integer. -/
def IsNumeral (s : List Char) : Prop :=
  ∃ (negative : Bool) (n : Numeral), s = (if negative then ['-'] else []) ++ n.chars

theorem not_isNumeral_of_head {c : Char} {s : List Char} (hc : c.isDigit = false)
    (hminus : c = '-' → ∃ d ∈ s.head?, d.isDigit = false) : ¬ IsNumeral (c :: s) := by
  rintro ⟨negative, n, heq⟩
  obtain ⟨d, ds, hwhole⟩ := List.exists_cons_of_ne_nil n.whole_ne_nil
  have hd : d.isDigit = true := n.whole_digits d (by simp [hwhole])
  rw [Numeral.chars, hwhole] at heq
  cases negative with
  | false =>
      obtain ⟨rfl, -⟩ := List.cons.inj heq
      rw [hd] at hc
      cases hc
  | true =>
      obtain ⟨rfl, hrest⟩ := List.cons.inj heq
      obtain ⟨e, he, hnot⟩ := hminus rfl
      rw [hrest] at he
      obtain rfl := Option.some.inj he
      rw [hd] at hnot
      cases hnot

/-- Only finite numbers are written as JSON has them; the others have names. -/
theorem isNumeral_writeFloat_iff {x : Binary64} :
    IsNumeral (writeFloat x) ↔ x.isFinite = true := by
  cases x with
  | nan => exact iff_of_false (not_isNumeral_of_head (by decide) (by decide)) nofun
  | infinite negative =>
      refine iff_of_false ?_ nofun
      cases negative with
      | false => exact not_isNumeral_of_head (by decide) (by decide)
      | true => exact not_isNumeral_of_head (by decide) (fun _ => ⟨'I', rfl, by decide⟩)
  | finite negative units h =>
      obtain ⟨n, hchars, -⟩ := Numeral.exists_chars_magnitudeText h
      exact iff_of_true ⟨negative, n, by rw [hchars]; rfl⟩ rfl

end Json

namespace Aggregate

/-- The line of an answer in JSON, with a text for the value. -/
def answerLine (aggregate : Aggregate) (value : String) : String :=
  "\x7b\"function_name\": \"" ++ aggregate.name ++ "\", \"value\": " ++ value ++ "\x7d" ++ "\n"

theorem toText_answer (aggregate : Aggregate) (x : Binary64) :
    (Json.obj [("function_name", .str aggregate.name), ("value", .float x)]).toText ++ "\n" =
      aggregate.answerLine (String.ofList (Json.writeFloat x)) := by
  apply congrArg (· ++ "\n")
  apply String.toList_inj.mp
  simp only [Json.toText, String.toList_ofList, String.toList_append, Json.write, Json.writeFields]
  cases aggregate <;> rfl

/-- If it is asked for JSON, the command prints a numeral exactly for a finite result. -/
theorem runAggregate_json {input kind : String} {values : List String}
    (hkind : ofName kind = .ok aggregate)
    (h : aggregate.apply (CommandLine.cellsOf (CommandLine.inputLines input) values) = .ok value) :
    ∃ text : String,
      CommandLine.runAggregate input kind values true = .exit 0 (aggregate.answerLine text) "" ∧
        (Json.IsNumeral text.toList ↔ value.isFinite = true) := by
  have hplain : ∀ c ∈ (Json.obj [("function_name", .str aggregate.name),
      ("value", .float value)]).toText.toList, Text.IsPlain c := by
    rw [Json.toText, String.toList_ofList]
    exact Json.isPlain_write _
  refine ⟨String.ofList (Json.writeFloat value), ?_, ?_⟩
  · rw [CommandLine.runAggregate, hkind]
    simp only [h, if_true]
    rw [CommandLine.succeed_of_isPlain hplain, Reply.ending, toText_answer]
  · rw [String.toList_ofList]
    exact Json.isNumeral_writeFloat_iff

/-- Results are numbers, and those of sums and means are finite exactly if the range is never left
on the way; all others are. If it is asked for JSON, the command prints the name of the aggregate
and, for a finite result and no other, a numeral. -/
theorem isFinite_apply_iff (h : aggregate.apply cells = .ok value)
    (hlength : cells.length < Nat.pow 2 64) :
    value ≠ .nan ∧
    (value.isFinite = true ↔
      (aggregate = .sum ∨ aggregate = .avg → StaysInRange (Cell.numbers cells))) ∧
    ∀ input kind values, ofName kind = .ok aggregate →
      CommandLine.cellsOf (CommandLine.inputLines input) values = cells →
      ∃ text : String,
        CommandLine.runAggregate input kind values true = .exit 0 (aggregate.answerLine text) "" ∧
          (Json.IsNumeral text.toList ↔ value.isFinite = true) := by
  rw [← and_assoc]
  refine ⟨?_, by rintro input kind values hkind rfl; exact runAggregate_json hkind h⟩
  rcases apply_cases h with ⟨rfl, hvalue⟩ | ⟨hcount, x, xs, hnumbers, rfl⟩
  · have hfinite : value.isFinite = true := by
      rw [hvalue]
      apply isFinite_ofNat (k := 64) _ (by decide)
      exact Nat.lt_of_le_of_lt (List.length_filterMap_le _ _) hlength
    refine ⟨?_, iff_of_true hfinite fun hsum => absurd hsum (by decide)⟩
    rintro rfl
    cases hfinite
  · have hfinite : ∀ y ∈ x :: xs, y.isFinite = true := by
      intro y hy
      rw [← hnumbers] at hy
      exact Cell.isFinite_of_mem_numbers hy
    have hshort : (x :: xs).length < Nat.pow 2 64 := by
      rw [← hnumbers]
      exact Nat.lt_of_le_of_lt (List.length_filterMap_le _ _) hlength
    rw [hnumbers]
    exact reduce_range hcount hfinite hshort

/-- A sum that leaves the range on its way, though the numbers add up to one of them. -/
theorem isFinite_apply_iff_overflow :
    let cells : List RawText := [.text "1e308", .text "1e308", .text "-1e308", .text "x"]
    (Aggregate.sum.apply cells = .ok (.infinite false) ∧ cells.length < Nat.pow 2 64) ∧
      ¬ StaysInRange (Cell.numbers cells) ∧
      ∃ text : String, CommandLine.runAggregate "" " sum " ["1e308", "1e308", "-1e308", "x"] true =
        .exit 0 (Aggregate.sum.answerLine text) "" ∧ ¬ Json.IsNumeral text.toList := by
  intro cells
  have hvalue : Aggregate.sum.apply cells = .ok (.infinite false) := by decide +kernel
  have hlength : cells.length < Nat.pow 2 64 := by decide
  obtain ⟨-, hrange, hprinted⟩ := isFinite_apply_iff hvalue hlength
  obtain ⟨text, hrun, htext⟩ := hprinted "" " sum " ["1e308", "1e308", "-1e308", "x"]
    (by decide) (by decide)
  refine ⟨⟨hvalue, hlength⟩, ?_, text, hrun, fun hnumeral => nomatch htext.mp hnumeral⟩
  intro hstays
  exact nomatch hrange.mpr fun _ => hstays

/-- A mean that is infinite, though it lies in range itself. -/
theorem apply_avg_infinite :
    ∃ value, Aggregate.avg.apply [.text "1e308", .text "1e308"] = .ok value ∧
      value.isFinite = false :=
  ⟨.infinite false, by decide +kernel, rfl⟩

end Aggregate

end ColumnFormula
