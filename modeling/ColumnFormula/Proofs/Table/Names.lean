import Mathlib.Data.List.Nodup
import ColumnFormula.Proofs.Sheet.Stages

/-!
# Columns and their own names

A name means the first column that it matches without regard to case and to blanks around it. So
the name of a column, even if it is spelled exactly, means another one if a column in front of it
has a name that differs in nothing else; and it means the column itself if there is none.
-/

namespace ColumnFormula

namespace Table

variable {table : Table} {before after : List Column} {column found : Column} {name : String}

/-- A name that some column matches means a column. -/
theorem exists_means (hmem : column ∈ table.columns) (hkey : nameKey column.name = nameKey name) :
    ∃ found, table.Means name found := by
  cases hfound : table.column name with
  | ok found => exact ⟨found, column_eq_ok_iff.mp hfound⟩
  | error error => exact absurd hkey ((column_eq_error_iff.mp hfound).1 column hmem)

theorem Means.cells_eq (h : table.Means name found) :
    table.cells name = .ok (found.cells.map .ofOption) := by
  rw [cells, column_eq_ok_iff.mpr h]
  rfl

/-- A formula aggregates the column that its argument means. -/
theorem Means.evaluate_eq {formula : RawText} {parsed : Formula}
    (h : table.Means parsed.argument found) (hparse : Formula.ofRaw formula = .ok parsed) :
    Sheet.evaluate formula table = (Aggregate.ofName parsed.name).bind fun aggregate =>
      (aggregate.apply (found.cells.map .ofOption)).map fun value =>
        ⟨aggregate, parsed.argument, value⟩ := by
  rw [Sheet.evaluate, hparse]
  simp only [bind, Except.bind, h.cells_eq]
  cases Aggregate.ofName parsed.name with
  | error error => rfl
  | ok aggregate => cases aggregate.apply (found.cells.map .ofOption) <;> rfl

/-- A column is meant by its own name exactly if none in front of it matches that name. -/
theorem means_self_iff (hnames : table.names.Nodup)
    (hcolumns : table.columns = before ++ column :: after) :
    table.Means column.name column ↔
      ∀ other ∈ before, nameKey other.name ≠ nameKey column.name := by
  refine ⟨?_, fun hfirst => ⟨rfl, before, after, hcolumns, hfirst⟩⟩
  rintro ⟨-, before', after', hcolumns', hfirst⟩
  -- Of columns with distinct names, none stands in two places.
  have hnodup : table.columns.Nodup := List.Nodup.of_map _ hnames
  rw [hcolumns, List.nodup_middle, List.nodup_cons, List.mem_append, not_or] at hnodup
  obtain ⟨⟨hbefore, hafter⟩, -⟩ := hnodup
  obtain ⟨rfl, -⟩ := (List.append_cons_inj_of_notMem hbefore hafter).mp
    (hcolumns.symm.trans hcolumns')
  exact hfirst

/-- Each column is meant by its own name if no two names match each other. -/
theorem means_self_of_nodup (hkeys : (table.columns.map (nameKey ·.name)).Nodup)
    (hmem : column ∈ table.columns) : table.Means column.name column := by
  obtain ⟨before, after, hcolumns⟩ := List.append_of_mem hmem
  refine ⟨rfl, before, after, hcolumns, fun other hother hkey => ?_⟩
  rw [hcolumns, List.map_append, List.map_cons, List.nodup_append] at hkeys
  exact hkeys.2.2 _ (List.mem_map_of_mem hother) _ List.mem_cons_self hkey

/-- The name of a column reaches a column, and any formula that names it exactly aggregates that
one: the first whose name matches without regard to case and to blanks around it. This is the
column itself exactly if no column in front of it has such a name. -/
theorem means_name (hnames : table.names.Nodup)
    (hcolumns : table.columns = before ++ column :: after) :
    ∃ found, table.Means column.name found ∧
      table.cells column.name = .ok (found.cells.map .ofOption) ∧
      (∀ formula parsed, Formula.ofRaw formula = .ok parsed → parsed.argument = column.name →
        Sheet.evaluate formula table = (Aggregate.ofName parsed.name).bind fun aggregate =>
          (aggregate.apply (found.cells.map .ofOption)).map fun value =>
            ⟨aggregate, column.name, value⟩) ∧
      (found = column ↔ ∀ other ∈ before, nameKey other.name ≠ nameKey column.name) := by
  have hmem : column ∈ table.columns := by
    rw [hcolumns]
    exact List.mem_append_right before List.mem_cons_self
  obtain ⟨found, hfound⟩ := exists_means hmem rfl
  refine ⟨found, hfound, hfound.cells_eq, ?_, ?_⟩
  · intro formula parsed hparse hargument
    rw [← hargument] at hfound ⊢
    exact hfound.evaluate_eq hparse
  · rw [← means_self_iff hnames hcolumns]
    constructor
    · rintro rfl
      exact hfound
    · exact fun hself => hfound.unique hself

/-- The name of the third column means the first, in which a sharp s stands for two letters. -/
theorem means_name_sharp :
    let columns : List Column := [⟨" ma\u00DF", [some "1"]⟩, ⟨"mas", [some "2"]⟩]
    let table : Table := ⟨columns ++ [⟨"MASS", [some "3"]⟩]⟩
    table.names.Nodup ∧ Formula.ofRaw (.text "= max(MASS )") = .ok ⟨"MAX", "MASS"⟩ ∧
      table.cells "MASS" = .ok [.text "1"] ∧
      Sheet.evaluate (.text "= max(MASS )") table = .ok ⟨.max, "MASS", .ofNat 1⟩ ∧
      ¬ ∀ other ∈ columns, nameKey other.name ≠ nameKey "MASS" := by
  intro columns table
  have hnames : table.names.Nodup := by decide
  have hparse : Formula.ofRaw (.text "= max(MASS )") = .ok ⟨"MAX", "MASS"⟩ := by decide +kernel
  have hfirst : table.column "MASS" = .ok ⟨" ma\u00DF", [some "1"]⟩ := by decide +kernel
  have hcolumns : table.columns = columns ++ [⟨"MASS", [some "3"]⟩] := rfl
  obtain ⟨found, hfound, hcells, hformula, hself⟩ := means_name hnames hcolumns
  obtain rfl := (column_eq_ok_iff.mp hfirst).unique hfound
  refine ⟨hnames, hparse, hcells, ?_, fun hnone => absurd (hself.mpr hnone) (by decide)⟩
  rw [hformula _ _ hparse rfl]
  decide +kernel

/-- A column that another one of the same name in capital letters stands in front of is not
reached by its own name. -/
theorem cells_capital :
    let column : Column := ⟨"a", [some "2"]⟩
    let table : Table := ⟨[⟨"A", [some "1"]⟩, column]⟩
    table.names.Nodup ∧ column ∈ table.columns ∧
      Text.strip column.name.toList = column.name.toList ∧
      table.cells column.name = .ok [.text "1"] ∧
      table.cells column.name ≠ .ok (column.cells.map .ofOption) := by
  decide +kernel

end Table

end ColumnFormula
