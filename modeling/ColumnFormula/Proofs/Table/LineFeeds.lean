import ColumnFormula.Proofs.Table.QuotedRows

/-!
# Tables with line feeds in their cells

A table is written with every field of its rows between quotes, so that line feeds may stand in
the fields. A reader that takes plain records for what they were written as gives one row for each
row that was written; but blank lines are dropped from the file before quotes are looked at, and so
from the fields. A cell is the text that was written, trimmed, if and only if no blank line was in
that but the white space around it.
-/

namespace ColumnFormula.Csv

/-- A written table with only quoted fields in its rows. -/
structure QuotedDocument where
  separator : Char
  header : List Field
  /-- The texts of the fields of each row, behind the line end in front of it. -/
  rows : List (LineEnd × List (List Char))
  lastEnd : Option LineEnd
  /-- Whether a byte order mark stands in front. -/
  hasMark : Bool
  isSeparator : IsSeparator separator
  isHeader : IsHeader separator header
  rowsNonempty : ∀ row ∈ rows, row.2 ≠ []
  /-- Of the line breaks, only line feeds stand in the fields. -/
  rowsUnbroken : ∀ row ∈ rows, ∀ text ∈ row.2, BreaksByFeeds text

namespace QuotedDocument

def body (doc : QuotedDocument) : List Char :=
  writeRecord doc.separator doc.header ++
    ((doc.rows.flatMap fun row => row.1.chars ++ writeQuoted doc.separator row.2) ++
      doc.lastEnd.elim [] LineEnd.chars)

/-- The file of a table. -/
def bytes (doc : QuotedDocument) : List UInt8 :=
  Text.Utf8.encode ((if doc.hasMark then ['\uFEFF'] else []) ++ doc.body)

/-- The table that was written, with columns of these names and cells of what is kept of its
fields. -/
def table (doc : QuotedDocument) (names : List String) (kept : List Char → List Char) : Table :=
  ⟨names.mapIdx fun place name =>
    ⟨name, doc.rows.map fun row => row.2[place]?.bind fun text => cellOf (kept text)⟩⟩

end QuotedDocument

/-! ## The lines of a file -/

/-- Where the last line of a text is used unless it is blank, all of its lines are. -/
theorem usedLines_intercalate {lines used : List (List Char)} {rest : List Char} (hne : lines ≠ [])
    (hlines : ∀ line ∈ lines, ∀ c ∈ line, Text.isLineBreak c = false)
    (hrest : ∀ line : List Char, (∀ c ∈ line, Text.isLineBreak c = false) →
      usedLines (line ++ rest) = [line].filter (fun line => !Text.isBlankLine line) ++ used) :
    usedLines (['\n'].intercalate lines ++ rest) =
      lines.filter (fun line => !Text.isBlankLine line) ++ used := by
  induction lines with
  | nil => exact absurd rfl hne
  | cons line lines ih =>
      rw [List.forall_mem_cons] at hlines
      by_cases hlast : lines = []
      · subst hlast
        rw [List.intercalate_singleton]
        exact hrest line hlines.1
      · have hline := usedLines_append hlines.1 .lineFeed (['\n'].intercalate lines ++ rest)
        rw [ih hlast hlines.2, ← List.append_assoc, ← List.append_assoc] at hline
        rw [List.intercalate_cons_of_ne_nil hlast]
        refine hline.trans ?_
        rw [← List.singleton_append (l := lines), List.filter_append]
        rfl

theorem BreaksByFeeds.isLineBreak_of_mem {s line : List Char} (h : BreaksByFeeds s)
    (hline : line ∈ Text.splitAtEach '\n' s) {c : Char} (hc : c ∈ line) :
    Text.isLineBreak c = false := by
  obtain ⟨hmem, hfeed⟩ := Text.of_mem_splitAtEach hline hc
  by_contra hbreak
  exact hfeed (h c hmem (by simpa using hbreak))

/-- The lines of texts, one behind the other, that are not blank are used. -/
theorem usedLines_texts {first : List Char} {texts : List (LineEnd × List Char)}
    (hfirst : BreaksByFeeds first) (htexts : ∀ text ∈ texts, BreaksByFeeds text.2)
    (lastEnd : Option LineEnd) :
    usedLines (first ++ (texts.flatMap (fun text => text.1.chars ++ text.2) ++
        lastEnd.elim [] LineEnd.chars)) =
      filledLines first ++ texts.flatMap fun text => filledLines text.2 := by
  have hused {text rest : List Char} {used : List (List Char)} (htext : BreaksByFeeds text)
      (hrest : ∀ line : List Char, (∀ c ∈ line, Text.isLineBreak c = false) →
        usedLines (line ++ rest) = [line].filter (fun line => !Text.isBlankLine line) ++ used) :
      usedLines (text ++ rest) = filledLines text ++ used := by
    have hlines := usedLines_intercalate (Text.splitAtEach_ne_nil '\n' text)
      (fun line hline c hc => htext.isLineBreak_of_mem hline hc) hrest
    rwa [Text.intercalate_splitAtEach] at hlines
  induction texts generalizing first with
  | nil =>
      refine hused hfirst fun line hline => ?_
      rw [List.flatMap_nil, List.flatMap_nil, List.nil_append, List.append_nil]
      cases lastEnd with
      | none =>
          rw [Option.elim_none, List.append_nil]
          exact usedLines_eq_singleton hline
      | some lineEnd =>
          have hlast := usedLines_append hline lineEnd []
          rw [List.append_nil] at hlast
          exact hlast.trans (List.append_nil _)
  | cons text texts ih =>
      rw [List.forall_mem_cons] at htexts
      refine hused hfirst fun line hline => ?_
      rw [List.flatMap_cons, List.flatMap_cons, ← ih htexts.1 htexts.2, List.append_assoc,
        List.append_assoc, ← List.append_assoc line]
      exact usedLines_append hline text.1 _

/-! ## Reading a written table -/

theorem cellOf_eq_iff {s t : List Char} :
    cellOf s = cellOf t ↔ Text.stripWhiteSpace s = Text.stripWhiteSpace t := by
  refine ⟨fun h => ?_, fun h => by rw [cellOf, cellOf, h]⟩
  rw [cellOf, cellOf] at h
  split at h
  next hs =>
    split at h
    next ht => rw [List.isEmpty_iff.mp hs, List.isEmpty_iff.mp ht]
    next => cases h
  next =>
    split at h
    next => cases h
    next => exact String.ofList_injective (Option.some.inj h)

theorem isHeader_h : IsHeader ';' [.bare ['h']] where
  fits := by simp [Field.Fits]
  plain := by simp [Field.IsPlain, Text.isLineBreak]
  filled := by decide
  unbroken := by
    intro c hc
    obtain rfl := List.mem_singleton.mp hc
    rfl
  unmarked := by decide

namespace QuotedDocument

variable (doc : QuotedDocument)

/-- The rows as they stand in the used lines. -/
def keptRows : List (List Field) :=
  doc.rows.map fun row => (row.2.map Text.withoutBlankLines).map Field.quoted

/-- The used lines, joined. -/
def text : List Char :=
  writeLines doc.separator (doc.header :: doc.keptRows)

theorem breaksByFeeds_writeQuoted {row : LineEnd × List (List Char)} (hrow : row ∈ doc.rows) :
    BreaksByFeeds (writeQuoted doc.separator row.2) := by
  have hfield : ∀ text ∈ row.2, BreaksByFeeds (Field.quoted text).write := by
    intro text htext c hc hbreak
    rw [Field.write, List.mem_cons, List.mem_append, List.mem_singleton, mem_escape_iff] at hc
    rcases hc with rfl | hc | rfl
    · cases hbreak
    · exact doc.rowsUnbroken row hrow text htext c hc hbreak
    · cases hbreak
  obtain ⟨first, rest, htexts⟩ := List.exists_cons_of_ne_nil (doc.rowsNonempty row hrow)
  rw [htexts, List.forall_mem_cons] at hfield
  rw [htexts, writeQuoted_cons]
  intro c hc hbreak
  rcases List.mem_append.mp hc with hc | hc
  · exact hfield.1 c hc hbreak
  · obtain ⟨text, htext, hc⟩ := List.mem_flatMap.mp hc
    rcases List.mem_cons.mp hc with rfl | hc
    · rw [doc.isSeparator.notBreak] at hbreak
      cases hbreak
    · exact hfield.2 text htext c hc hbreak

/-- The used lines of the file are the line of the names and those of the kept rows. -/
theorem exists_usedLines_body :
    ∃ lines, usedLines doc.body = writeRecord doc.separator doc.header :: lines ∧
      ['\n'].intercalate (writeRecord doc.separator doc.header :: lines) = doc.text := by
  have hheader : BreaksByFeeds (writeRecord doc.separator doc.header) := by
    intro c hc hbreak
    rw [doc.isHeader.unbroken c hc] at hbreak
    cases hbreak
  have hsplit := Text.splitAtEach_of_not_mem doc.isHeader.newline_not_mem
  have hfilled : filledLines (writeRecord doc.separator doc.header) =
      [writeRecord doc.separator doc.header] := by
    rw [filledLines, hsplit,
      List.filter_cons_of_pos (by simp [Text.isBlankLine, doc.isHeader.filled]), List.filter_nil]
  have hrows : (doc.rows.flatMap fun row => filledLines (writeQuoted doc.separator row.2)) =
      (doc.keptRows.map (writeRecord doc.separator)).flatMap (Text.splitAtEach '\n') := by
    rw [keptRows, List.map_map, List.flatMap_map]
    exact List.flatMap_congr fun row hrow =>
      filledLines_writeQuoted doc.isSeparator.ne_newline (doc.rowsNonempty row hrow)
  have htexts : ∀ text ∈ doc.rows.map fun row => (row.1, writeQuoted doc.separator row.2),
      BreaksByFeeds text.2 := by
    rw [List.forall_mem_map]
    exact fun row hrow => doc.breaksByFeeds_writeQuoted hrow
  have hused := usedLines_texts hheader htexts doc.lastEnd
  rw [List.flatMap_map, List.flatMap_map, hfilled, hrows, List.singleton_append] at hused
  refine ⟨_, hused, ?_⟩
  rw [text, writeLines, List.map_cons,
    ← Text.intercalate_flatMap_splitAtEach '\n' (_ :: doc.keptRows.map _), List.flatMap_cons,
    hsplit, List.singleton_append]

/-- The rows as they stand in the used lines are plain. -/
theorem isRecord_keptRows : ∀ fields ∈ doc.keptRows, IsRecord doc.separator fields := by
  rw [keptRows, List.forall_mem_map]
  intro row hrow
  have hquoted (texts : List (List Char)) : ∀ field ∈ texts.map Field.quoted,
      field.Fits doc.separator := by
    rw [List.forall_mem_map]
    exact fun _ _ => trivial
  refine ⟨hquoted _, ?_, ?_⟩
  · rw [List.map_map, List.forall_mem_map]
    exact fun text htext c hc => doc.rowsUnbroken row hrow text htext c
      ((Text.withoutBlankLines_sublist text).subset hc)
  · obtain ⟨text, texts, htexts⟩ := List.exists_cons_of_ne_nil (doc.rowsNonempty row hrow)
    have hquote : '"' ∈ writeQuoted doc.separator (row.2.map Text.withoutBlankLines) := by
      rw [htexts, List.map_cons, writeQuoted_cons]
      exact List.mem_cons_self
    exact List.isEmpty_eq_false_iff.mp (isBlankLine_of_quote hquote)

theorem load_eq_read (read : Reader) :
    load (.text (String.singleton doc.separator)) doc.bytes read =
      (read (some (String.singleton doc.separator)) doc.text).map Table.trimmed := by
  obtain ⟨lines, hused, hlines⟩ := doc.exists_usedLines_body
  rw [← hlines]
  exact load_encode doc.hasMark hused doc.isHeader.unmarked read

theorem ofTexts_keptRows (names : List String) :
    Table.ofTexts (columnTexts names (doc.keptRows.map (·.map Field.text))) =
      doc.table names Text.withoutBlankLines := by
  simp only [ofTexts_columnTexts, table, keptRows, List.map_map, Function.comp_def,
    List.getElem?_map, Option.bind_map, Field.text]

/-- The table without blank lines is the one that was written if and only if the fields of its
columns keep their lines. -/
theorem table_withoutBlankLines_iff (names : List String) :
    doc.table names Text.withoutBlankLines = doc.table names id ↔
      ∀ row ∈ doc.rows, ∀ text ∈ row.2.take names.length, Text.KeepsLines text := by
  have hcell (texts : List (List Char)) (place : Nat) :
      (texts[place]?.bind fun text => cellOf (Text.withoutBlankLines text)) =
          (texts[place]?.bind fun text => cellOf (id text)) ↔
        ∀ text, texts[place]? = some text → Text.KeepsLines text := by
    cases texts[place]? with
    | none => simp
    | some text =>
        simp [cellOf_eq_iff, Text.stripWhiteSpace_withoutBlankLines_iff]
  unfold table
  rw [Table.mk.injEq, List.mapIdx_eq_mapIdx_iff]
  simp only [Column.mk.injEq, true_and, List.map_inj_left, hcell]
  constructor
  · intro h row hrow text htext
    obtain ⟨place, hplace⟩ := List.mem_iff_getElem?.mp htext
    rw [List.getElem?_take] at hplace
    split at hplace
    next hlt => exact h place hlt row hrow text hplace
    next => cases hplace
  · intro h place hplace row hrow text htext
    apply h row hrow text
    apply List.mem_of_getElem? (i := place)
    rwa [List.getElem?_take_of_lt hplace]

/-- Of a table with quoted fields a reader is given the fields without the blank lines between
their first and their last line. If the reader takes plain records for what they were written as,
then there is one row for each row that was written, below the names that it gives to the header
alone. So the table is the one that was written if and only if every blank line in a field of a
column is white space with nothing else in front of it or nothing else behind it. Different names
without quotes are always given. -/
theorem load_quoted :
    (∀ read : Reader, load (.text (String.singleton doc.separator)) doc.bytes read =
      (read (some (String.singleton doc.separator)) doc.text).map Table.trimmed) ∧
    ∀ read : Reader, ReaderLaws read →
      (load (.text (String.singleton doc.separator)) doc.bytes read =
        (read (some (String.singleton doc.separator)) (writeRecord doc.separator doc.header)).map
          fun named => doc.table named.names Text.withoutBlankLines) ∧
      (∀ named, read (some (String.singleton doc.separator))
          (writeRecord doc.separator doc.header) = .ok named →
        (load (.text (String.singleton doc.separator)) doc.bytes read =
            .ok (doc.table named.names id) ↔
          ∀ row ∈ doc.rows, ∀ text ∈ row.2.take named.names.length, Text.KeepsLines text)) ∧
      ((∀ field ∈ doc.header, field.text ≠ [] ∧ '"' ∉ field.text) →
        (doc.header.map Field.text).Nodup →
          load (.text (String.singleton doc.separator)) doc.bytes read =
            .ok (doc.table (doc.header.map fun field => String.ofList field.text)
              Text.withoutBlankLines)) := by
  refine ⟨doc.load_eq_read, fun read laws => ?_⟩
  have hload : load (.text (String.singleton doc.separator)) doc.bytes read =
      (read (some (String.singleton doc.separator)) (writeRecord doc.separator doc.header)).map
        fun named => doc.table named.names Text.withoutBlankLines := by
    rw [doc.load_eq_read, text,
      laws.map_trimmed doc.isSeparator doc.isHeader doc.isRecord_keptRows]
    simp only [ofTexts_keptRows]
  refine ⟨hload, fun named hnamed => ?_, fun hnames hnodup => ?_⟩
  · rw [hload, hnamed, ← doc.table_withoutBlankLines_iff]
    exact ⟨Except.ok.inj, congrArg Except.ok⟩
  · obtain ⟨named, hnamed, hgiven⟩ := laws.exists_names doc.isSeparator doc.isHeader hnames hnodup
    rw [hload, hnamed, ← hgiven]
    rfl

/-- A line feed in a cell, and blank lines in front of another one. -/
def linesInside : QuotedDocument where
  separator := ';'
  header := [.bare ['h']]
  rows := [(.both, ["a\nb".toList]), (.lineFeed, ["\n\nc".toList])]
  lastEnd := none
  hasMark := false
  isSeparator := isSeparator_semicolon
  isHeader := isHeader_h
  rowsNonempty := by decide
  rowsUnbroken := by decide

theorem load_quoted_linesInside :
    ReaderLaws readRecords ∧ readRecords (some ";") ['h'] = .ok ⟨[⟨"h", []⟩]⟩ ∧
      linesInside.bytes = Text.Utf8.encode "h\r\n\"a\nb\"\n\"\n\nc\"".toList ∧
      (∀ row ∈ linesInside.rows, ∀ text ∈ row.2.take 1, Text.KeepsLines text) ∧
      load (.text ";") linesInside.bytes = .ok ⟨[⟨"h", [some "a\nb", some "c"]⟩]⟩ := by
  have hnamed : readRecords (some ";") ['h'] = .ok ⟨[⟨"h", []⟩]⟩ := by decide +kernel
  have hkeeps : ∀ row ∈ linesInside.rows, ∀ text ∈ row.2.take 1, Text.KeepsLines text := by
    simp only [← Text.stripWhiteSpace_withoutBlankLines_iff]
    decide +kernel
  have htable : linesInside.table ["h"] id = ⟨[⟨"h", [some "a\nb", some "c"]⟩]⟩ := by
    decide +kernel
  refine ⟨readRecords_laws, hnamed, by decide +kernel, hkeeps, ?_⟩
  rw [← htable]
  exact ((linesInside.load_quoted.2 readRecords readRecords_laws).2.1 _ hnamed).mpr hkeeps

end QuotedDocument

/-- A blank line in a cell. -/
def blankInside : QuotedDocument where
  separator := ';'
  header := [.bare ['h']]
  rows := [(.lineFeed, [['a', '\n', '\n', 'b']])]
  lastEnd := some .lineFeed
  hasMark := false
  isSeparator := isSeparator_semicolon
  isHeader := isHeader_h
  rowsNonempty := List.forall_mem_singleton.mpr (List.cons_ne_nil _ _)
  rowsUnbroken := by decide

theorem load_blankInside :
    blankInside.bytes = Text.Utf8.encode "h\n\"a\n\nb\"\n".toList ∧
      blankInside.table ["h"] id = ⟨[⟨"h", [some "a\n\nb"]⟩]⟩ ∧
      load (.text ";") blankInside.bytes = .ok ⟨[⟨"h", [some "a\nb"]⟩]⟩ ∧
      load (.text ";") blankInside.bytes ≠ .ok (blankInside.table ["h"] id) := by
  have hload : load (.text ";") blankInside.bytes = .ok ⟨[⟨"h", [some "a\nb"]⟩]⟩ := by
    decide +kernel
  refine ⟨by decide +kernel, by decide +kernel, hload, ?_⟩
  rw [hload]
  decide +kernel

end ColumnFormula.Csv
