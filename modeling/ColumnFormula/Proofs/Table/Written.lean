import Mathlib.Data.List.Basic
import ColumnFormula.Table.Csv

/-!
# Records as they are written

A field is written bare or between quotes, and then every quote in it is doubled. A record is the
line of its fields, and a table the lines of its records, that of the names in front. A record is
plain if quotes stand only around its fields and in those that have quotes around them, and if it
has no line breaks but line feeds between quotes.

What a reader of separated values is relied on for is that it takes plain records for what they
were written as. Nothing is said of what it makes of other texts.
-/

namespace ColumnFormula

/-- The names of a table with the texts of their cells. An empty cell has no text. -/
def Table.texts (table : Table) : List (String × List (List Char)) :=
  table.columns.map fun column => (column.name, column.cells.map fun cell => (cell.getD "").toList)

/-- The table of names with the texts of their cells, as far as these are kept. -/
def Table.ofTexts (columns : List (String × List (List Char))) : Table :=
  ⟨columns.map fun column => ⟨column.1, column.2.map Csv.cellOf⟩⟩

namespace Csv

/-- A field as it is written: as it is, or between quotes. -/
inductive Field where
  | bare (text : List Char)
  | quoted (text : List Char)
  deriving DecidableEq, Repr

/-- Text in which every double quote is written twice. -/
def escape : List Char → List Char
  | [] => []
  | c :: s => if c = '"' then '"' :: '"' :: escape s else c :: escape s

/-- Whether only line feeds break the lines of a text. -/
def BreaksByFeeds (s : List Char) : Prop :=
  ∀ c ∈ s, Text.isLineBreak c = true → c = '\n'

instance : DecidablePred BreaksByFeeds :=
  List.decidableBAll fun c => Text.isLineBreak c = true → c = '\n'

namespace Field

def text : Field → List Char
  | .bare text => text
  | .quoted text => text

def write : Field → List Char
  | .bare text => text
  | .quoted text => '"' :: (escape text ++ ['"'])

/-- Whether a field may be written so. -/
def Fits (sep : Char) : Field → Prop
  | .bare text => sep ∉ text ∧ '\n' ∉ text ∧ text.head? ≠ some '"'
  | .quoted _ => True

/-- Whether a field holds quotes and line feeds only if it is written between quotes, and no other
line breaks. -/
def IsPlain : Field → Prop
  | .bare text => '"' ∉ text ∧ ∀ c ∈ text, Text.isLineBreak c = false
  | .quoted text => BreaksByFeeds text

end Field

/-- The line of a record. -/
def writeRecord (sep : Char) (fields : List Field) : List Char :=
  [sep].intercalate (fields.map Field.write)

/-- The lines of records. -/
def writeLines (sep : Char) (records : List (List Field)) : List Char :=
  ['\n'].intercalate (records.map (writeRecord sep))

/-- Columns of rows of texts. A row may end early, and has no text behind its end. -/
def columnTexts (names : List String) (rows : List (List (List Char))) :
    List (String × List (List Char)) :=
  names.mapIdx fun place name => (name, rows.map fun row => row[place]?.getD [])

/-! ## Lines of records -/

theorem writeRecord_cons (sep : Char) (field : Field) (fields : List Field) :
    writeRecord sep (field :: fields) =
      field.write ++ fields.flatMap fun field => sep :: field.write := by
  induction fields generalizing field with
  | nil => simp [writeRecord]
  | cons second fields ih =>
      have hrecord : writeRecord sep (field :: second :: fields) =
          field.write ++ [sep] ++ writeRecord sep (second :: fields) :=
        List.intercalate_cons_cons
      rw [hrecord, ih, List.flatMap_cons, List.append_assoc, List.singleton_append,
        List.cons_append]

theorem writeRecord_append (sep : Char) (fields : List Field) {rest : List Field}
    (hrest : rest ≠ []) :
    writeRecord sep (fields ++ rest) =
      fields.flatMap (fun field => field.write ++ [sep]) ++ writeRecord sep rest := by
  induction fields with
  | nil => rfl
  | cons field fields ih =>
      have hcons : writeRecord sep (field :: (fields ++ rest)) =
          field.write ++ [sep] ++ writeRecord sep (fields ++ rest) :=
        List.intercalate_cons_of_ne_nil (by simp [hrest])
      rw [List.cons_append, hcons, ih, List.flatMap_cons, List.append_assoc _ _
        (writeRecord sep rest)]

theorem writeRecord_concat (sep : Char) (fields : List Field) (last : Field) :
    writeRecord sep (fields ++ [last]) =
      fields.flatMap (fun field => field.write ++ [sep]) ++ last.write := by
  rw [writeRecord_append sep fields (List.cons_ne_nil last []), writeRecord, List.map_singleton,
    List.intercalate_singleton]

/-! ## Plain records -/

/-- Whether a character may separate fields. -/
structure IsSeparator (sep : Char) : Prop where
  isAscii : sep.toNat < 0x80
  notNull : sep ≠ '\x00'
  notQuote : sep ≠ '"'
  notBreak : Text.isLineBreak sep = false

/-- Whether fields are a plain record. A line of blanks is none. -/
structure IsRecord (sep : Char) (fields : List Field) : Prop where
  fits : ∀ field ∈ fields, field.Fits sep
  plain : ∀ field ∈ fields, field.IsPlain
  filled : Text.strip (writeRecord sep fields) ≠ []

/-- Whether fields are a plain record of names: it has no line breaks and no byte order mark in
front. -/
structure IsHeader (sep : Char) (fields : List Field) : Prop extends IsRecord sep fields where
  unbroken : ∀ c ∈ writeRecord sep fields, Text.isLineBreak c = false
  unmarked : (writeRecord sep fields).head? ≠ some '\uFEFF'

/-- What a reader of separated values is relied on for. -/
structure ReaderLaws (read : Reader) : Prop where
  /-- Different names without quotes are the names of columns, which have no cells if nothing
  stands below the names. -/
  names : ∀ {sep : Char} {header : List Field}, IsSeparator sep → IsHeader sep header →
    (∀ field ∈ header, field.text ≠ [] ∧ '"' ∉ field.text) → (header.map Field.text).Nodup →
      (read (some (String.singleton sep)) (writeRecord sep header)).map Table.texts =
        .ok (header.map fun field => (String.ofList field.text, []))
  /-- Records below the names are the rows of the columns that there are without them. What a row
  has behind the last column is passed over. -/
  rows : ∀ {sep : Char} {header : List Field} {rows : List (List Field)}, IsSeparator sep →
    IsHeader sep header → (∀ row ∈ rows, IsRecord sep row) →
      (read (some (String.singleton sep)) (writeLines sep (header :: rows))).map Table.texts =
        (read (some (String.singleton sep)) (writeRecord sep header)).map fun table =>
          columnTexts table.names (rows.map (·.map Field.text))

theorem isSeparator_semicolon : IsSeparator ';' :=
  ⟨by decide, by decide, by decide, by decide⟩

variable {sep c : Char} {fields : List Field}

theorem IsSeparator.ne_newline (h : IsSeparator sep) : sep ≠ '\n' := by
  rintro rfl
  exact absurd h.notBreak (by decide)

theorem IsRecord.write_ne_nil (h : IsRecord sep fields) : writeRecord sep fields ≠ [] := by
  intro hnil
  exact h.filled (by rw [hnil, Text.strip_nil])

theorem IsRecord.ne_nil (h : IsRecord sep fields) : fields ≠ [] := by
  rintro rfl
  exact h.write_ne_nil rfl

theorem IsHeader.newline_not_mem (h : IsHeader sep fields) : '\n' ∉ writeRecord sep fields :=
  fun hmem => absurd (h.unbroken _ hmem) (by decide)

/-! ## The text of a table -/

theorem kept_eq_cellOf (cell : Option String) : kept cell = cellOf (cell.getD "").toList := by
  cases cell <;> rfl

/-- What is kept of a table depends on its texts only. -/
theorem ofTexts_texts (table : Table) : Table.ofTexts table.texts = table.trimmed := by
  rw [Table.ofTexts, Table.texts, List.map_map]
  refine congrArg Table.mk (List.map_congr_left fun column _ => ?_)
  rw [Function.comp_apply, List.map_map, Column.trimmed]
  exact congrArg (Column.mk column.name)
    (List.map_congr_left fun cell _ => (kept_eq_cellOf cell).symm)

/-- What is kept of columns of rows of texts. A row that ends early leaves empty cells. -/
theorem ofTexts_columnTexts (names : List String) (rows : List (List (List Char))) :
    Table.ofTexts (columnTexts names rows) =
      ⟨names.mapIdx fun place name =>
        ⟨name, rows.map fun row => row[place]?.bind fun text => cellOf text⟩⟩ := by
  refine congrArg Table.mk (List.ext_getElem (by simp [columnTexts]) fun place _ _ => ?_)
  simp only [columnTexts, List.getElem_map, List.getElem_mapIdx, List.map_map]
  refine congrArg (Column.mk _) (List.map_congr_left fun row _ => ?_)
  rw [Function.comp_apply]
  cases row[place]? <;> rfl

theorem map_fst_texts (table : Table) : table.texts.map Prod.fst = table.names := by
  rw [Table.texts, List.map_map]
  rfl

/-- What is kept of plain records that are read. -/
theorem ReaderLaws.map_trimmed {read : Reader} (laws : ReaderLaws read) {header : List Field}
    {rows : List (List Field)} (hsep : IsSeparator sep) (hheader : IsHeader sep header)
    (hrows : ∀ row ∈ rows, IsRecord sep row) :
    (read (some (String.singleton sep)) (writeLines sep (header :: rows))).map Table.trimmed =
      (read (some (String.singleton sep)) (writeRecord sep header)).map fun table =>
        Table.ofTexts (columnTexts table.names (rows.map (·.map Field.text))) := by
  have htexts := congrArg (Except.map Table.ofTexts) (laws.rows hsep hheader hrows)
  have hkept (read : Except CsvError Table) :
      read.map Table.trimmed = (read.map Table.texts).map Table.ofTexts := by
    cases read with
    | error error => rfl
    | ok table => exact congrArg Except.ok (ofTexts_texts table).symm
  rw [hkept, htexts]
  cases read (some (String.singleton sep)) (writeRecord sep header) <;> rfl

/-- Different names without quotes are read. -/
theorem ReaderLaws.exists_names {read : Reader} (laws : ReaderLaws read) {header : List Field}
    (hsep : IsSeparator sep) (hheader : IsHeader sep header)
    (hnames : ∀ field ∈ header, field.text ≠ [] ∧ '"' ∉ field.text)
    (hnodup : (header.map Field.text).Nodup) :
    ∃ table, read (some (String.singleton sep)) (writeRecord sep header) = .ok table ∧
      table.names = header.map fun field => String.ofList field.text := by
  have hread := laws.names hsep hheader hnames hnodup
  cases htable : read (some (String.singleton sep)) (writeRecord sep header) with
  | error error =>
      rw [htable] at hread
      cases hread
  | ok table =>
      rw [htable] at hread
      refine ⟨table, rfl, ?_⟩
      rw [← map_fst_texts, Except.ok.inj hread, List.map_map]
      rfl

end Csv

end ColumnFormula
