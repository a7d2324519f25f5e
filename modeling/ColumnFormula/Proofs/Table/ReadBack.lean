import ColumnFormula.Proofs.Table.Blocks
import ColumnFormula.Proofs.Text.Lines
import ColumnFormula.Proofs.Text.Trim
import ColumnFormula.Proofs.Text.Utf8

/-!
# Tables that are written and read back

A table is written with its names in the first line and its rows below them, each field bare or
between quotes. The lines may end in any way, blank lines may stand between them and a byte order
mark in front of all. What is loaded is what a reader makes of the lines that are not blank. So if
the reader takes plain records for what they were written as, the table is read back as it was
written, unless a quote stands in a bare field.
-/

namespace ColumnFormula.Csv

/-- How a line ends. -/
inductive LineEnd where
  | lineFeed
  | carriageReturn
  | both
  deriving DecidableEq, Repr

def LineEnd.chars : LineEnd → List Char
  | .lineFeed => ['\n']
  | .carriageReturn => ['\r']
  | .both => ['\r', '\n']

/-- A written table: the names and rows, and the lines of a file that has them for its lines that
are not blank. -/
structure Document where
  separator : Char
  header : List Field
  /-- Rows may end early. -/
  rows : List (List Field)
  /-- Whether a byte order mark stands in front. -/
  hasMark : Bool
  lines : List (List Char × LineEnd)
  /-- What stands behind the last line end. -/
  last : List Char
  isSeparator : IsSeparator separator
  headerFits : FitsIn separator 0 header
  namesValid : ∀ field ∈ header, field.text ≠ [] ∧ '"' ∉ field.text ∧ '\uFEFF' ∉ field.text
  namesNodup : (header.map Field.text).Nodup
  rowsFit : ∀ row ∈ rows, FitsIn separator header.length row
  unbroken : ∀ line ∈ lines.map Prod.fst ++ [last], ∀ c ∈ line, Text.isLineBreak c = false
  /-- The lines that are not blank are those of the names and rows. -/
  used : (lines.map Prod.fst ++ [last]).filter (fun line => !(Text.strip line).isEmpty) =
    (header :: rows).map (writeRecord separator)

namespace Document

def body (doc : Document) : List Char :=
  doc.lines.flatMap (fun line => line.1 ++ line.2.chars) ++ doc.last

/-- The file of a table. -/
def bytes (doc : Document) : List UInt8 :=
  Text.Utf8.encode ((if doc.hasMark then ['\uFEFF'] else []) ++ doc.body)

def names (doc : Document) : List String :=
  doc.header.map fun field => String.ofList field.text

/-- The table that was written. -/
def table (doc : Document) : Table :=
  ⟨doc.names.mapIdx fun place name =>
    ⟨name, doc.rows.map fun row => row[place]?.bind fun field => cellOf field.text⟩⟩

/-- Whether no quote stands in a bare field of a row. -/
def IsPlain (doc : Document) : Prop :=
  ∀ row ∈ doc.rows, ∀ field ∈ row, ∀ text, field = .bare text → '"' ∉ text

end Document

/-! ## Used lines -/

theorem usedLines_newline (s : List Char) : usedLines ('\n' :: s) = usedLines s := by
  rw [usedLines, Text.unifyNewlines.eq_def]
  rfl

/-- However a line ends, it is used unless it is blank. -/
theorem usedLines_append {line : List Char} (hline : ∀ c ∈ line, Text.isLineBreak c = false)
    (lineEnd : LineEnd) (s : List Char) :
    usedLines (line ++ lineEnd.chars ++ s) =
      [line].filter (fun line => !(Text.strip line).isEmpty) ++ usedLines s := by
  have hreturn : '\r' ∉ line := fun hmem => absurd (hline _ hmem) (by decide)
  have hfeed (t : List Char) : (Text.splitLines (line ++ '\n' :: Text.unifyNewlines t)).filter
        (fun line => !(Text.strip line).isEmpty) =
      [line].filter (fun line => !(Text.strip line).isEmpty) ++ usedLines t := by
    rw [Text.splitLines_append_newline hline, usedLines, ← List.filter_append,
      List.singleton_append]
  have hunify : Text.unifyNewlines (line ++ lineEnd.chars ++ s) =
      line ++ Text.unifyNewlines (lineEnd.chars ++ s) := by
    rw [List.append_assoc, Text.unifyNewlines_append hreturn]
  rw [usedLines, hunify]
  cases lineEnd with
  | lineFeed => exact hfeed s
  | both => exact hfeed s
  | carriageReturn =>
      rw [LineEnd.chars, List.singleton_append]
      by_cases hs : s.head? = some '\n'
      · -- The line feed belongs to the line end, and is taken for a blank line otherwise.
        obtain ⟨t, rfl⟩ := List.head?_eq_some_iff.mp hs
        rw [usedLines_newline]
        exact hfeed t
      · rw [Text.unifyNewlines_return hs]
        exact hfeed s

theorem usedLines_eq_singleton {line : List Char}
    (hline : ∀ c ∈ line, Text.isLineBreak c = false) :
    usedLines line = [line].filter fun line => !(Text.strip line).isEmpty := by
  have hreturn : '\r' ∉ line := fun hmem => absurd (hline _ hmem) (by decide)
  rw [usedLines, Text.unifyNewlines_eq_self hreturn]
  by_cases hne : line = []
  · subst hne
    rfl
  · rw [Text.splitLines_eq_singleton hline hne]

/-- A text that begins with no blank begins with a used line. -/
theorem exists_usedLines {c : Char} (hc : Text.isBlank c = false) (s : List Char) :
    ∃ line lines, usedLines (c :: s) = (c :: line) :: lines := by
  have hbreak : Text.isLineBreak c = false := by
    by_contra hbreak
    rw [Bool.not_eq_false] at hbreak
    rw [Text.isBlank_of_isLineBreak hbreak] at hc
    cases hc
  have hreturn : '\r' ∉ [c] := by
    rw [List.mem_singleton]
    rintro rfl
    cases hc
  have hsplit : ∃ line lines, Text.splitLines (Text.unifyNewlines (c :: s)) =
      (c :: line) :: lines := by
    rw [← List.singleton_append, Text.unifyNewlines_append hreturn, List.singleton_append,
      Text.splitLines_cons hbreak]
    rcases Text.splitLines (Text.unifyNewlines s) with _ | ⟨line, lines⟩
    · exact ⟨[], [], rfl⟩
    · exact ⟨line, lines, rfl⟩
  obtain ⟨line, lines, hlines⟩ := hsplit
  have hkept : c ∈ Text.strip (c :: line) := (Text.mem_trimBy_iff hc).mpr List.mem_cons_self
  refine ⟨line, lines.filter fun line => !(Text.strip line).isEmpty, ?_⟩
  rw [usedLines, hlines, List.filter_cons_of_pos]
  simp [List.ne_nil_of_mem hkept]

theorem usedLines_flatMap {lines : List (List Char × LineEnd)} {last : List Char}
    (hlines : ∀ line ∈ lines.map Prod.fst ++ [last], ∀ c ∈ line, Text.isLineBreak c = false) :
    usedLines (lines.flatMap (fun line => line.1 ++ line.2.chars) ++ last) =
      (lines.map Prod.fst ++ [last]).filter fun line => !(Text.strip line).isEmpty := by
  induction lines with
  | nil => exact usedLines_eq_singleton (hlines last List.mem_cons_self)
  | cons line lines ih =>
      rw [List.map_cons, List.cons_append, List.forall_mem_cons] at hlines
      rw [List.flatMap_cons, List.append_assoc, usedLines_append hlines.1, ih hlines.2,
        ← List.filter_append]
      rfl

/-- A file with used lines is read as these lines, joined. A byte order mark in front is dropped,
and nothing else is. -/
theorem load_encode {sep : Char} {s line : List Char} {lines : List (List Char)} (hasMark : Bool)
    (hused : usedLines s = line :: lines) (hline : line.head? ≠ some '\uFEFF') (read : Reader) :
    load (.text (String.singleton sep))
        (Text.Utf8.encode ((if hasMark then ['\uFEFF'] else []) ++ s)) read =
      (read (some (String.singleton sep)) (['\n'].intercalate (line :: lines))).map
        Table.trimmed := by
  have hmark : Text.Utf8.dropByteOrderMark ((if hasMark then ['\uFEFF'] else []) ++ s) = s := by
    cases hasMark with
    | true => rfl
    | false =>
        show Text.Utf8.dropByteOrderMark s = s
        apply Text.Utf8.dropByteOrderMark_of_head?
        intro hhead
        obtain ⟨t, rfl⟩ := List.head?_eq_some_iff.mp hhead
        obtain ⟨first, rest, hfirst⟩ :=
          exists_usedLines (by decide : Text.isBlank '\uFEFF' = false) t
        rw [hfirst, List.cons.injEq] at hused
        exact hline (congrArg List.head? hused.1.symm)
  have hchosen : (Separator.text (String.singleton sep)).chosen line =
      some (String.singleton sep) := by
    simp [Separator.chosen]
  rw [load, Text.Utf8.decode?_encode]
  dsimp only
  rw [hmark, ofChars, hused]
  dsimp only
  rw [hchosen]

/-! ## Characters of a record -/

theorem mem_escape_iff {c : Char} {s : List Char} : c ∈ escape s ↔ c ∈ s := by
  induction s with
  | nil => rfl
  | cons d s ih =>
      rw [escape]
      split
      next hd => simp [ih, hd]
      next => rw [List.mem_cons, List.mem_cons, ih]

theorem Field.mem_write {c : Char} {field : Field} (h : c ∈ field.text) : c ∈ field.write := by
  cases field with
  | bare text => exact h
  | quoted text => exact List.mem_cons_of_mem _ (List.mem_append_left _ (mem_escape_iff.mpr h))

theorem mem_writeRecord {sep c : Char} {field : Field} {fields : List Field}
    (hfield : field ∈ fields) (hc : c ∈ field.write) : c ∈ writeRecord sep fields := by
  obtain ⟨before, after, rfl⟩ := List.append_of_mem hfield
  have hrest : c ∈ writeRecord sep (field :: after) := by
    rw [writeRecord_cons]
    exact List.mem_append_left _ hc
  rw [writeRecord_append sep before (List.cons_ne_nil field after)]
  exact List.mem_append_right _ hrest

namespace Document

/-! ## Reading a written table -/

variable (doc : Document)

theorem usedLines_body :
    usedLines doc.body = (doc.header :: doc.rows).map (writeRecord doc.separator) := by
  rw [body, usedLines_flatMap doc.unbroken, doc.used]

/-- The line of a record is not blank and holds no line break. -/
theorem line_of_mem {fields : List Field} (h : fields ∈ doc.header :: doc.rows) :
    Text.strip (writeRecord doc.separator fields) ≠ [] ∧
      ∀ c ∈ writeRecord doc.separator fields, Text.isLineBreak c = false := by
  have hused := List.mem_map_of_mem (f := writeRecord doc.separator) h
  rw [← doc.used, List.mem_filter] at hused
  exact ⟨by simpa using hused.2, doc.unbroken _ hused.1⟩

theorem isRecord_of_mem {fields : List Field} (h : fields ∈ doc.header :: doc.rows)
    (hfits : ∀ field ∈ fields, field.Fits doc.separator)
    (hquote : ∀ field ∈ fields, ∀ text, field = .bare text → '"' ∉ text) :
    IsRecord doc.separator fields := by
  obtain ⟨hfilled, hunbroken⟩ := doc.line_of_mem h
  refine ⟨hfits, fun field hfield => ?_, hfilled⟩
  have htext : ∀ c ∈ field.text, Text.isLineBreak c = false := fun c hc =>
    hunbroken c (mem_writeRecord hfield (Field.mem_write hc))
  cases field with
  | bare text => exact ⟨hquote _ hfield text rfl, htext⟩
  | quoted text =>
      intro c hc hbreak
      rw [htext c hc] at hbreak
      cases hbreak

theorem isRecord_header : IsRecord doc.separator doc.header := by
  refine doc.isRecord_of_mem List.mem_cons_self doc.headerFits.fits ?_
  rintro field hfield text rfl
  exact (doc.namesValid _ hfield).2.1

/-- The line of the names does not begin with a byte order mark. -/
theorem head?_header : (writeRecord doc.separator doc.header).head? ≠ some '\uFEFF' := by
  obtain ⟨field, fields, hheader⟩ := List.exists_cons_of_ne_nil doc.isRecord_header.ne_nil
  have hfield : field ∈ doc.header := hheader ▸ List.mem_cons_self
  obtain ⟨hne, -, hmark⟩ := doc.namesValid field hfield
  rw [hheader, writeRecord_cons]
  cases field with
  | bare text =>
      obtain ⟨c, rest, rfl⟩ := List.exists_cons_of_ne_nil hne
      intro hhead
      exact hmark (Option.some.inj hhead ▸ List.mem_cons_self)
  | quoted text => exact fun hhead => absurd (Option.some.inj hhead) (by decide)

theorem isHeader : IsHeader doc.separator doc.header where
  toIsRecord := doc.isRecord_header
  unbroken := (doc.line_of_mem List.mem_cons_self).2
  unmarked := doc.head?_header

/-- The used lines, joined. -/
def text : List Char :=
  writeLines doc.separator (doc.header :: doc.rows)

/-- What is loaded is what the reader makes of the used lines, trimmed. -/
theorem load_eq_read (read : Reader) :
    load (.text (String.singleton doc.separator)) doc.bytes read =
      (read (some (String.singleton doc.separator)) doc.text).map Table.trimmed :=
  load_encode doc.hasMark doc.usedLines_body doc.isHeader.unmarked read

theorem ofTexts_rows :
    Table.ofTexts (columnTexts doc.names (doc.rows.map (·.map Field.text))) = doc.table := by
  simp only [ofTexts_columnTexts, table, List.map_map, Function.comp_def, List.getElem?_map,
    Option.bind_map]

/-- Of a written table a reader is given the lines that are not blank, and what it makes of them is
trimmed. If the reader takes plain records for what they were written as and no quote stands in a
bare field of a row, the table is read back, with its names and one row for each row that was
written, each cell trimmed. -/
theorem load_bytes :
    (∀ read : Reader, load (.text (String.singleton doc.separator)) doc.bytes read =
      (read (some (String.singleton doc.separator)) doc.text).map Table.trimmed) ∧
    ∀ read : Reader, ReaderLaws read → doc.IsPlain →
      load (.text (String.singleton doc.separator)) doc.bytes read = .ok doc.table := by
  refine ⟨doc.load_eq_read, fun read laws hplain => ?_⟩
  have hrows : ∀ row ∈ doc.rows, IsRecord doc.separator row := fun row hrow =>
    doc.isRecord_of_mem (List.mem_cons_of_mem _ hrow) (doc.rowsFit row hrow).fits
      (hplain row hrow)
  obtain ⟨table, hread, hnames⟩ := laws.exists_names doc.isSeparator doc.isHeader
    (fun field hfield => ⟨(doc.namesValid field hfield).1, (doc.namesValid field hfield).2.1⟩)
    doc.namesNodup
  rw [doc.load_eq_read, text, laws.map_trimmed doc.isSeparator doc.isHeader hrows, hread,
    ← doc.ofTexts_rows, names, ← hnames]
  rfl

/-- Lines that end in three ways, a blank line and a byte order mark, and quoted and missing
fields. -/
def mixedLineEnds : Document where
  separator := ';'
  header := [.bare ['a'], .quoted ['b']]
  rows := [[.bare [' ', 'x', ' '], .quoted ['y', '"', 'z']], [.quoted [';']]]
  hasMark := true
  lines := [(['a', ';', '"', 'b', '"'], .both),
    ([' ', 'x', ' ', ';', '"', 'y', '"', '"', 'z', '"'], .carriageReturn),
    ([' ', '\t'], .lineFeed), (['"', ';', '"'], .lineFeed)]
  last := []
  isSeparator := isSeparator_semicolon
  headerFits := ⟨by decide, by decide, by simp [Field.Fits]⟩
  namesValid := by decide
  namesNodup := by decide
  rowsFit := by
    rw [List.forall_mem_cons, List.forall_mem_singleton]
    exact ⟨⟨by decide, by decide, by simp [Field.Fits]⟩,
      ⟨by decide, by decide, by simp [Field.Fits]⟩⟩
  unbroken := by simp [Text.isLineBreak]
  used := rfl

theorem load_bytes_mixedLineEnds :
    ReaderLaws readRecords ∧ mixedLineEnds.IsPlain ∧
      mixedLineEnds.bytes =
        Text.Utf8.encode "\uFEFFa;\"b\"\r\n x ;\"y\"\"z\"\r \t\n\";\"\n".toList ∧
      load (.text ";") mixedLineEnds.bytes =
        .ok ⟨[⟨"a", [some "x", some ";"]⟩, ⟨"b", [some "y\"z", none]⟩]⟩ := by
  have hplain : mixedLineEnds.IsPlain := by
    simp [Document.IsPlain, mixedLineEnds]
  have htable : mixedLineEnds.table =
      ⟨[⟨"a", [some "x", some ";"]⟩, ⟨"b", [some "y\"z", none]⟩]⟩ := by
    decide +kernel
  refine ⟨readRecords_laws, hplain, by decide +kernel, ?_⟩
  rw [← htable]
  exact mixedLineEnds.load_bytes.2 readRecords readRecords_laws hplain

end Document

/-- A quote inside of a bare field, in a row that is not the last. -/
def strayQuote : Document where
  separator := ','
  header := [.bare ['a']]
  rows := [[.bare ['x', '"']], [.bare ['y']]]
  hasMark := false
  lines := [(['a'], .lineFeed), (['x', '"'], .lineFeed)]
  last := ['y']
  isSeparator := ⟨by decide, by decide, by decide, by decide⟩
  headerFits := ⟨by decide, by decide, by simp [Field.Fits]⟩
  namesValid := by decide
  namesNodup := by decide
  rowsFit := by
    intro row hrow
    simp only [List.mem_cons, List.not_mem_nil, or_false] at hrow
    rcases hrow with rfl | rfl
    · exact ⟨by decide, by decide, by simp [Field.Fits]⟩
    · exact ⟨by decide, by decide, by simp [Field.Fits]⟩
  unbroken := by simp [Text.isLineBreak]
  used := rfl

/-- A reader that takes plain records for what they were written as may refuse others. -/
theorem load_strayQuote :
    ReaderLaws readRecords ∧
      strayQuote.bytes = Text.Utf8.encode "a\nx\"\ny".toList ∧
      strayQuote.table = ⟨[⟨"a", [some "x\"", some "y"]⟩]⟩ ∧
      load (.text ",") strayQuote.bytes = .error .malformed ∧
      load (.text ",") strayQuote.bytes ≠ .ok strayQuote.table := by
  have hload : load (.text ",") strayQuote.bytes = .error .malformed := by decide +kernel
  refine ⟨readRecords_laws, by decide +kernel, by decide +kernel, hload, ?_⟩
  rw [hload]
  exact fun h => nomatch h

end ColumnFormula.Csv
