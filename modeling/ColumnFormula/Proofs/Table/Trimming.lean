import ColumnFormula.Proofs.Aggregate.Tolerance
import ColumnFormula.Proofs.Sheet.Passes
import ColumnFormula.Proofs.Text.Trim
import ColumnFormula.Table.Csv

/-!
# Cells that are trimmed twice

Cells are trimmed of white space when a table is loaded, and of all blanks, which are more, when
their content is asked for. The first makes no difference to the second: what is blank in either
sense has no content, and any other cell has the same content before and after. So a formula comes
to the same against a table and against the table with all cells trimmed, as loading leaves them.
-/

namespace ColumnFormula

/-! ## Cells -/

namespace Cell

theorem content?_text (s : String) :
    content? (.text s) =
      if (Text.strip s.toList).isEmpty then none else some (Text.strip s.toList) :=
  rfl

/-- What loading keeps of a text has the content of the text. -/
theorem content?_cellOf (s : String) :
    content? (.ofOption (Csv.cellOf s.toList)) = content? (.text s) := by
  rw [content?_text, Csv.cellOf]
  split
  next hempty =>
    -- White space alone is blank.
    have hblank : Text.strip s.toList = [] := by
      rw [← Text.strip_stripWhiteSpace, List.isEmpty_iff.mp hempty, Text.strip_nil]
    rw [hblank]
    rfl
  next =>
    rw [RawText.ofOption, content?_text, String.toList_ofList, Text.strip_stripWhiteSpace]

theorem content?_kept (cell : Option String) :
    content? (.ofOption (Csv.kept cell)) = content? (.ofOption cell) := by
  cases cell with
  | none => rfl
  | some s => exact content?_cellOf s

variable {cells : List (Option String)}

theorem contents_kept :
    contents ((cells.map Csv.kept).map .ofOption) = contents (cells.map .ofOption) := by
  rw [contents, contents, List.map_map, List.filterMap_map, List.filterMap_map]
  exact List.filterMap_congr fun cell _ => content?_kept cell

theorem numbers_kept :
    numbers ((cells.map Csv.kept).map .ofOption) = numbers (cells.map .ofOption) := by
  rw [numbers, numbers, List.map_map, List.filterMap_map, List.filterMap_map]
  exact List.filterMap_congr fun cell _ => congrArg (·.bind parseNumber?) (content?_kept cell)

end Cell

/-! ## Loaded tables -/

namespace Csv

theorem kept_cellOf (s : List Char) : kept (cellOf s) = cellOf s := by
  have hstrip : Text.stripWhiteSpace (Text.stripWhiteSpace s) = Text.stripWhiteSpace s :=
    Text.trimBy_trimBy s
  rw [cellOf]
  split
  next => rfl
  next hne => rw [kept, Option.bind_some, String.toList_ofList, cellOf, hstrip, if_neg hne]

theorem kept_kept (cell : Option String) : kept (kept cell) = kept cell := by
  cases cell with
  | none => rfl
  | some s => exact kept_cellOf s.toList

theorem trimmed_trimmed (table : Table) : table.trimmed.trimmed = table.trimmed := by
  rw [Table.trimmed, Table.trimmed, List.map_map]
  refine congrArg Table.mk (List.map_congr_left fun column _ => ?_)
  rw [Function.comp_apply, Column.trimmed, Column.trimmed, List.map_map]
  exact congrArg (Column.mk _) (List.map_congr_left fun cell _ => kept_kept cell)

/-- Nothing is left to trim in a table that was loaded, whatever the reader gives. -/
theorem load_map_trimmed (separator : Separator) (bytes : List UInt8) (read : Reader) :
    (load separator bytes read).map Table.trimmed = load separator bytes read := by
  unfold load
  split
  next => rfl
  next s _ =>
    unfold ofChars
    split
    next => rfl
    next line lines _ =>
      cases read (separator.chosen line) (['\n'].intercalate (line :: lines)) with
      | error error => rfl
      | ok table => exact congrArg Except.ok (trimmed_trimmed table)

end Csv

/-! ## Columns and tables -/

theorem Aggregate.apply_trimmed (aggregate : Aggregate) (column : Column) :
    aggregate.apply (column.trimmed.cells.map .ofOption) =
      aggregate.apply (column.cells.map .ofOption) := by
  by_cases hcount : aggregate = .count
  · rw [hcount, apply_count, apply_count, Column.trimmed, Cell.contents_kept]
  · exact apply_congr hcount Cell.numbers_kept

namespace Table

theorem names_trimmed (table : Table) : table.trimmed.names = table.names := by
  rw [names, names, trimmed, List.map_map]
  rfl

/-- A name means the same column, trimmed. -/
theorem column_trimmed (table : Table) (name : String) :
    table.trimmed.column name = (table.column name).map Column.trimmed := by
  have hfind : table.trimmed.columns.find? (fun column => nameKey column.name == nameKey name) =
      (table.columns.find? fun column => nameKey column.name == nameKey name).map
        Column.trimmed := by
    rw [trimmed, List.find?_map]
    rfl
  rw [column, column, hfind, names_trimmed]
  cases table.columns.find? fun column => nameKey column.name == nameKey name <;> rfl

end Table

/-! ## Formulas -/

namespace Sheet

theorem evaluate_trimmed (formula : RawText) (table : Table) :
    evaluate formula table.trimmed = evaluate formula table := by
  simp only [evaluate, Table.cells, Table.column_trimmed]
  cases Formula.ofRaw formula with
  | error error => rfl
  | ok parsed =>
      simp only [bind, Except.bind]
      cases Aggregate.ofName parsed.name with
      | error error => rfl
      | ok aggregate =>
          cases table.column parsed.argument with
          | error error => rfl
          | ok column => simp only [Except.map, Aggregate.apply_trimmed]

/-- Formulas do not see whether a table was trimmed of white space. A table that is loaded is
trimmed, whatever reads its cells. A cell has the same content whether it was trimmed or not; and
any formula, a text, bytes or nothing, has the same outcome and report against a table and against
the trimmed one, or is interrupted alike, whichever way whole numbers are shown. -/
theorem calculateFormula_trimmed :
    (∀ separator bytes read,
      (Csv.load separator bytes read).map Table.trimmed = Csv.load separator bytes read) ∧
    (∀ s : String, Cell.content? (.ofOption (Csv.cellOf s.toList)) = Cell.content? (.text s)) ∧
    ∀ (sheet : Sheet) (formula : RawText) (table : Table),
      sheet.calculateFormula formula table.trimmed = sheet.calculateFormula formula table := by
  refine ⟨Csv.load_map_trimmed, Cell.content?_cellOf, fun sheet formula table => ?_⟩
  rw [calculateFormula, calculateFormula, outcome, outcome, evaluate_trimmed]

example : Csv.cellOf "\t\x1f \u3000".toList = some "\x1f" ∧
    Cell.content? (.text "\t\x1f \u3000") = none ∧
    Csv.cellOf "\x1f 7\u2003\x1f\n".toList = some "\x1f 7\u2003\x1f" ∧
    Cell.content? (.text "\x1f 7\u2003\x1f\n") = some ['7'] := by
  decide

end Sheet

end ColumnFormula
