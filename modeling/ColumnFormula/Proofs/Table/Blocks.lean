import Mathlib.Data.List.Nodup
import ColumnFormula.Proofs.Table.Fields
import ColumnFormula.Proofs.Text.Utf8

/-!
# Lines and blocks of plain records

In a plain record line feeds stand between quotes only, and the quotes are closed where it ends. So
a line that is told by its quotes is a record, and a block of such lines has as many records as
lines. Hence plain records are read as what they were written as, with whatever the names in front
of them come to.
-/

namespace ColumnFormula.Csv

/-- Whether the line feeds of a text stand between quotes, and the last quotes are closed. -/
def IsSealed : Bool → List Char → Prop
  | isOpen, [] => isOpen = false
  | isOpen, c :: s =>
    (c = '\n' → isOpen = true) ∧ IsSealed (if c = '"' then !isOpen else isOpen) s

/-- The cells of the texts of fields. -/
def cells (fields : List Field) : List (Option String) :=
  fields.map fun field => textCell field.text

/-- The names that the fields of a header come to. -/
def headerNames (header : List Field) : List String :=
  numberNames [] ((header.map Field.write).map nameOf)

variable {sep : Char} {width : Nat} {isOpen : Bool} {s t : List Char} {fields : List Field}
  {rows : List (List Field)}

/-! ## Line feeds between quotes -/

theorem isSealed_escape (text : List Char) (h : IsSealed true s) :
    IsSealed true (escape text ++ s) := by
  induction text with
  | nil => exact h
  | cons c text ih =>
      rw [escape]
      split
      next => exact ⟨fun _ => rfl, fun hc => absurd hc (by decide), ih⟩
      next hc =>
        refine ⟨fun _ => rfl, ?_⟩
        rwa [if_neg hc]

theorem isSealed_append {text : List Char} (hline : '\n' ∉ text) (hquote : '"' ∉ text)
    (h : IsSealed isOpen s) : IsSealed isOpen (text ++ s) := by
  induction text with
  | nil => exact h
  | cons c text ih =>
      rw [List.mem_cons, not_or] at hline hquote
      refine ⟨fun hc => absurd hc.symm hline.1, ?_⟩
      rw [if_neg (Ne.symm hquote.1)]
      exact ih hline.2 hquote.2

theorem Field.isSealed_write {field : Field} (hplain : field.IsPlain) (h : IsSealed false s) :
    IsSealed false (field.write ++ s) := by
  cases field with
  | bare text =>
      obtain ⟨hquote, hbreak⟩ := hplain
      exact isSealed_append (fun hmem => absurd (hbreak _ hmem) (by decide)) hquote h
  | quoted text =>
      rw [Field.write, List.cons_append, List.append_assoc]
      refine ⟨fun hc => absurd hc (by decide), isSealed_escape text ?_⟩
      exact ⟨fun hc => absurd hc (by decide), h⟩

/-- Line feeds stand between the quotes of fields. -/
theorem isSealed_writeRecord (hsep : IsSeparator sep) (hplain : ∀ field ∈ fields, field.IsPlain) :
    IsSealed false (writeRecord sep fields) := by
  have hfields {fields : List Field} (hplain : ∀ field ∈ fields, field.IsPlain) :
      IsSealed false (fields.flatMap fun field => sep :: field.write) := by
    induction fields with
    | nil => rfl
    | cons field fields ih =>
        rw [List.forall_mem_cons] at hplain
        rw [List.flatMap_cons, List.cons_append]
        refine ⟨fun hc => absurd hc hsep.ne_newline, ?_⟩
        rw [if_neg hsep.notQuote]
        exact Field.isSealed_write hplain.1 (ih hplain.2)
  cases fields with
  | nil => rfl
  | cons field fields =>
      rw [List.forall_mem_cons] at hplain
      rw [writeRecord_cons]
      exact Field.isSealed_write hplain.1 (hfields hplain.2)

/-! ## Lines outside of quotes -/

/-- Put a text in front of the first of some lines. -/
def prependTo (s : List Char) : List (List Char) × List Char → List (List Char) × List Char
  | ([], rest) => ([], s ++ rest)
  | (line :: lines, rest) => ((s ++ line) :: lines, rest)

theorem prependTo_append (s t : List Char) (lines : List (List Char) × List Char) :
    prependTo (s ++ t) lines = prependTo s (prependTo t lines) := by
  rcases lines with ⟨_ | ⟨line, lines⟩, rest⟩ <;> simp [prependTo]

theorem prependTo_nil (lines : List (List Char) × List Char) : prependTo [] lines = lines := by
  rcases lines with ⟨_ | ⟨line, lines⟩, rest⟩ <;> rfl

theorem quotedLines_cons {c : Char} (h : c = '\n' → isOpen = true) :
    quotedLines isOpen (c :: s) =
      prependTo [c] (quotedLines (if c = '"' then !isOpen else isOpen) s) := by
  rw [quotedLines, if_neg]
  · rcases quotedLines (if c = '"' then !isOpen else isOpen) s with ⟨_ | ⟨line, lines⟩, rest⟩
    all_goals rfl
  · rintro ⟨hc, hclosed⟩
    exact hclosed (h hc)

theorem quotedLines_newline : quotedLines false ('\n' :: s) =
    (['\n'] :: (quotedLines false s).1, (quotedLines false s).2) := by
  rw [quotedLines, if_pos ⟨rfl, Bool.false_ne_true⟩]

theorem IsSealed.quotedLines_append (h : IsSealed isOpen t) (s : List Char) :
    quotedLines isOpen (t ++ s) = prependTo t (quotedLines false s) := by
  induction t generalizing isOpen with
  | nil =>
      obtain rfl : isOpen = false := h
      rw [prependTo_nil, List.nil_append]
  | cons c t ih =>
      rw [List.cons_append, quotedLines_cons h.1, ih h.2, ← prependTo_append,
        List.singleton_append]

/-- Lines are those of records. -/
theorem quotedLines_rows {last : List Char} (hlast : IsSealed false last)
    (hrows : ∀ row ∈ rows, IsSealed false (writeRecord sep row)) :
    quotedLines false ((rows.flatMap fun row => writeRecord sep row ++ ['\n']) ++ last) =
      (rows.map fun row => writeRecord sep row ++ ['\n'], last) := by
  induction rows with
  | nil =>
      have hlines := hlast.quotedLines_append []
      rw [List.append_nil] at hlines
      exact hlines.trans (congrArg (Prod.mk []) (List.append_nil _))
  | cons row rows ih =>
      rw [List.forall_mem_cons] at hrows
      rw [List.flatMap_cons, List.append_assoc, List.append_assoc, hrows.1.quotedLines_append,
        List.singleton_append, quotedLines_newline, ih hrows.2]
      rfl

theorem IsSealed.cutLine_append (h : IsSealed isOpen t) (s : List Char) :
    cutLine isOpen (t ++ s) = (t ++ (cutLine false s).1, (cutLine false s).2) := by
  induction t generalizing isOpen with
  | nil =>
      obtain rfl : isOpen = false := h
      rfl
  | cons c t ih =>
      rw [List.cons_append, cutLine, if_neg (fun hc => hc.2 (h.1 hc.1)), ih h.2]
      rfl

/-- The first record is cut off. -/
theorem cutLine_writeLines (h : IsSealed false (writeRecord sep fields)) :
    cutLine false (writeLines sep (fields :: rows)) =
      (writeRecord sep fields, writeLines sep rows) := by
  cases rows with
  | nil =>
      have hcut := h.cutLine_append []
      rw [List.append_nil] at hcut
      rw [writeLines, List.map_singleton, List.intercalate_singleton, hcut]
      exact congrArg (Prod.mk · []) (List.append_nil _)
  | cons row rows =>
      have hlines : writeLines sep (fields :: row :: rows) =
          writeRecord sep fields ++ '\n' :: writeLines sep (row :: rows) := by
        simp only [writeLines, List.map_cons, List.intercalate_cons_cons, List.append_assoc,
          List.singleton_append]
      rw [hlines, h.cutLine_append]
      exact congrArg (Prod.mk · _) (List.append_nil _)

/-! ## Scanning records -/

/-- Behind the fields that are used, line feeds between quotes end no record. -/
theorem IsSealed.scan_surplus (h : IsSealed isOpen t) (sep : Char) (width : Nat)
    (raw : List Char) (record : List (List Char)) (s : List Char) :
    ∃ rest, scan sep width (.surplus isOpen) raw record (t ++ s) =
      scan sep width (.surplus false) rest record s := by
  induction t generalizing isOpen raw with
  | nil =>
      obtain rfl : isOpen = false := h
      exact ⟨raw, rfl⟩
  | cons c t ih =>
      cases hopen : if c = '"' then !isOpen else isOpen with
      | true =>
          have hnext : (Place.surplus isOpen).next c = .surplus true := congrArg Place.surplus hopen
          obtain ⟨rest, hrest⟩ := ih (hopen ▸ h.2) (c :: raw)
          exact ⟨rest, by rw [List.cons_append, scan_open hnext rfl, hrest]⟩
      | false =>
          have hnext : (Place.surplus isOpen).next c = .surplus false :=
            congrArg Place.surplus hopen
          have hc : c ≠ '\n' := by
            rintro rfl
            rw [h.1 rfl] at hopen
            cases hopen
          obtain ⟨rest, hrest⟩ := ih (hopen ▸ h.2) []
          refine ⟨rest, ?_⟩
          rw [List.cons_append, scan, hnext, ← hrest]
          simp [Place.isOpen, hc]

/-- Of a record that is too long the first fields are used. -/
theorem IsRecord.scan_wide (h : IsRecord sep fields) (hsep : IsSeparator sep) (hwidth : 0 < width)
    (hlength : width < fields.length) (s : List Char) :
    ∃ raw, scan sep width .fieldStart [] [] (writeRecord sep fields ++ s) =
      scan sep width (.surplus false) raw ((fields.take width).map Field.write).reverse s := by
  have hused : (fields.take width).length = width := List.length_take_of_le (Nat.le_of_lt hlength)
  have hsome : fields.take width ≠ [] := by
    rwa [← List.length_pos_iff, hused]
  obtain ⟨init, last, htake⟩ := List.eq_nil_or_concat (fields.take width) |>.resolve_left hsome
  rw [List.concat_eq_append] at htake
  rw [htake, List.length_append, List.length_singleton] at hused
  have hfits : ∀ field ∈ init ++ [last], field.Fits sep := fun field hfield =>
    h.fits field (List.mem_of_mem_take (htake ▸ hfield))
  rw [List.forall_mem_append, List.forall_mem_singleton] at hfits
  have hwrite : writeRecord sep fields = init.flatMap (fun field => field.write ++ [sep]) ++
      (last.write ++ [sep]) ++ writeRecord sep (fields.drop width) := by
    rw [← List.take_append_drop width fields,
      writeRecord_append sep _ (by simpa using hlength), htake, List.flatMap_append, List.flatMap_singleton, ← htake, List.take_append_drop]
  have hsealed : IsSealed false (writeRecord sep (fields.drop width)) :=
    isSealed_writeRecord hsep fun field hfield => h.plain field (List.mem_of_mem_drop hfield)
  obtain ⟨raw, hraw⟩ := hsealed.scan_surplus sep width []
    ((init ++ [last]).map Field.write).reverse s
  refine ⟨raw, ?_⟩
  rw [htake, ← hraw, hwrite, List.append_assoc, List.append_assoc,
    scan_fields hsep.notQuote hsep.ne_newline hfits.1 (.inr (by rw [List.length_nil]; omega)),
    List.append_assoc, hfits.2.scan_write hsep.notQuote, List.singleton_append,
    scan_separator (last.isPlain_next_place hsep.notQuote) hsep.ne_newline,
    if_pos (by simp [hused])]
  simp

theorem IsRecord.fitsIn (h : IsRecord sep fields) (hlength : width = 0 ∨ fields.length ≤ width) :
    FitsIn sep width fields :=
  ⟨h.ne_nil, hlength, h.fits⟩

/-- A record is read as far as there are columns. -/
theorem IsRecord.scan_line (h : IsRecord sep fields) (hsep : IsSeparator sep) (hwidth : 0 < width)
    (s : List Char) :
    scan sep width .fieldStart [] [] (writeRecord sep fields ++ '\n' :: s) =
      (fields.take width).map Field.write :: scan sep width .fieldStart [] [] s := by
  by_cases hlength : fields.length ≤ width
  · rw [List.take_of_length_le hlength]
    exact (h.fitsIn (.inr hlength)).scan_line hsep.notQuote hsep.ne_newline
  · rw [Nat.not_le] at hlength
    obtain ⟨raw, hraw⟩ := h.scan_wide hsep hwidth hlength ('\n' :: s)
    rw [hraw, scan]
    simp [Place.next, Place.isOpen, endRecord]

/-- The last record needs no line feed behind it. -/
theorem IsRecord.scan_last (h : IsRecord sep fields) (hsep : IsSeparator sep)
    (hwidth : 0 < width) :
    scan sep width .fieldStart [] [] (writeRecord sep fields) =
      [(fields.take width).map Field.write] := by
  by_cases hlength : fields.length ≤ width
  · rw [List.take_of_length_le hlength]
    exact (h.fitsIn (.inr hlength)).scan_last hsep.notQuote hsep.ne_newline h.write_ne_nil
  · rw [Nat.not_le] at hlength
    obtain ⟨raw, hraw⟩ := h.scan_wide hsep hwidth hlength []
    rw [List.append_nil] at hraw
    rw [hraw, scan]
    simp [endRecord]

theorem scan_rows (hsep : IsSeparator sep) (hwidth : 0 < width)
    (hrows : ∀ row ∈ rows, IsRecord sep row) :
    scan sep width .fieldStart [] [] (rows.map fun row => writeRecord sep row ++ ['\n']).flatten =
      (rows.map (·.take width)).map (·.map Field.write) := by
  induction rows with
  | nil => rfl
  | cons row rows ih =>
      rw [List.forall_mem_cons] at hrows
      rw [List.map_cons, List.flatten_cons, List.append_assoc, List.singleton_append,
        hrows.1.scan_line hsep hwidth, ih hrows.2]
      rfl

/-! ## Blocks -/

/-- Blocks hold the lines in their order, whatever their sizes. -/
theorem exists_blocks {α : Type} (text : α → List Char) (size room : Nat)
    (block lines : List α) :
    ∃ parts : List (List α),
      blocks size room (block.map text) (lines.map text) = parts.map (·.map text) ∧
        parts.flatten = block.reverse ++ lines := by
  induction lines generalizing size room block with
  | nil => exact ⟨[block.reverse], by simp [blocks], by simp⟩
  | cons line lines ih =>
      rw [List.map_cons, blocks]
      split
      · obtain ⟨parts, hparts, hflatten⟩ := ih size (room - byteSize (text line)) (line :: block)
        exact ⟨parts, hparts, by simp [hflatten]⟩
      · obtain ⟨parts, hparts, hflatten⟩ := ih (sizeFor size (byteSize (text line)))
          (sizeFor size (byteSize (text line)) - byteSize (text line)) [line]
        refine ⟨block.reverse :: parts, ?_, by simp [hflatten]⟩
        rw [List.map_cons, ← hparts, List.map_reverse]
        rfl

/-- A block is read if it has as many records as lines. -/
theorem blockRows_eq {lines : List (List Char)} (hrows : ∀ row ∈ rows, IsRecord sep row)
    (hlength : rows.length = lines.length)
    (hscan : scan sep width .fieldStart [] [] lines.flatten =
      (rows.map (·.take width)).map (·.map Field.write)) :
    blockRows sep width lines = .ok (rows.map fun row => cells (row.take width)) := by
  unfold blockRows
  dsimp only
  have hcells : ∀ row ∈ rows, cellsOf ((row.take width).map Field.write) =
      .ok (cells (row.take width)) := fun row hrow =>
    cellsOf_write fun field hfield => (hrows row hrow).fits field (List.mem_of_mem_take hfield)
  rw [hscan, if_neg (by simp [hlength]), List.mapM_map, List.mapM_map]
  exact mapM_eq_ok hcells

/-- Plain records are all read. -/
theorem rows_of_writeLines (hsep : IsSeparator sep) (hwidth : 0 < width)
    (hrows : ∀ row ∈ rows, IsRecord sep row) :
    ((bodyBlocks (writeLines sep rows)).mapM (blockRows sep width)).map List.flatten =
      .ok (rows.map fun row => cells (row.take width)) := by
  rcases List.eq_nil_or_concat rows with rfl | ⟨init, last, rfl⟩
  · rfl
  · rw [List.concat_eq_append, List.forall_mem_append, List.forall_mem_singleton] at hrows
    have hsealed : ∀ row, IsRecord sep row → IsSealed false (writeRecord sep row) :=
      fun row hrow => isSealed_writeRecord hsep hrow.plain
    obtain ⟨parts, hparts, hflatten⟩ := exists_blocks
      (fun row => writeRecord sep row ++ ['\n']) blockSize blockSize [] init
    rw [List.reverse_nil, List.nil_append] at hflatten
    have hblocks : bodyBlocks (writeLines sep (init ++ [last])) =
        parts.map (·.map fun row => writeRecord sep row ++ ['\n']) ++
          [[writeRecord sep last]] := by
      rw [writeLines, List.map_append, List.map_singleton, intercalate_concat, List.flatMap_map,
        bodyBlocks, quotedLines_rows (hsealed last hrows.2) fun row hrow =>
          hsealed row (hrows.1 row hrow), ← hparts, List.map_nil]
      dsimp only
      rw [if_neg (by simp [hrows.2.write_ne_nil])]
    have hread : (parts.map (·.map fun row => writeRecord sep row ++ ['\n'])).mapM
        (blockRows sep width) =
          .ok (parts.map (·.map fun row => cells (row.take width))) := by
      rw [List.mapM_map]
      refine mapM_eq_ok fun part hpart => ?_
      have hpartRows : ∀ row ∈ part, IsRecord sep row := fun row hrow =>
        hrows.1 row (hflatten ▸ List.mem_flatten_of_mem hpart hrow)
      exact blockRows_eq hpartRows (by simp) (scan_rows hsep hwidth hpartRows)
    have hlast : blockRows sep width [writeRecord sep last] =
        .ok ([last].map fun row => cells (row.take width)) := by
      apply blockRows_eq (List.forall_mem_singleton.mpr hrows.2) rfl
      rw [List.flatten_singleton]
      exact hrows.2.scan_last hsep hwidth
    rw [List.concat_eq_append, hblocks, List.mapM_append, hread, List.mapM_cons, hlast,
      List.map_append, ← hflatten, List.map_flatten]
    exact congrArg Except.ok List.flatten_append

/-! ## Tables -/

theorem length_numberNames (before names : List String) :
    (numberNames before names).length = names.length := by
  induction names generalizing before with
  | nil => rfl
  | cons name names ih => rw [numberNames, List.length_cons, ih, List.length_cons]

theorem length_headerNames (header : List Field) :
    (headerNames header).length = header.length := by
  rw [headerNames, length_numberNames, List.length_map, List.length_map]

theorem numberNames_eq_self {before names : List String} (hnodup : names.Nodup)
    (hbefore : ∀ name ∈ names, name ∉ before) : numberNames before names = names := by
  induction names generalizing before with
  | nil => rfl
  | cons name names ih =>
      rw [List.nodup_cons] at hnodup
      rw [List.forall_mem_cons] at hbefore
      rw [numberNames, List.count_eq_zero_of_not_mem hbefore.1, ih hnodup.2]
      · rfl
      · intro other hother
        rw [List.mem_cons, not_or]
        refine ⟨?_, hbefore.2 other hother⟩
        rintro rfl
        exact hnodup.1 hother

/-- Different names without quotes are taken as they are. -/
theorem headerNames_eq {header : List Field} (hquote : ∀ field ∈ header, '"' ∉ field.text)
    (hnodup : (header.map Field.text).Nodup) :
    headerNames header = (header.map Field.text).map String.ofList ∧
      (headerNames header).Nodup := by
  have hnames : (header.map Field.write).map nameOf =
      (header.map Field.text).map String.ofList := by
    rw [List.map_map, List.map_map]
    exact List.map_congr_left fun field hfield => Field.nameOf_write (hquote field hfield)
  have hdistinct : ((header.map Field.text).map String.ofList).Nodup :=
    hnodup.map fun _ _ => String.ofList_injective
  have heq : headerNames header = (header.map Field.text).map String.ofList := by
    rw [headerNames, hnames]
    exact numberNames_eq_self hdistinct fun _ _ => List.not_mem_nil
  exact ⟨heq, heq ▸ hdistinct⟩

section Table

variable {header : List Field}

/-- The table of plain records: what they are written below decides whether there is one. -/
theorem tableOf_writeLines (hsep : IsSeparator sep) (hheader : IsHeader sep header)
    (hrows : ∀ row ∈ rows, IsRecord sep row) :
    tableOf sep (writeLines sep (header :: rows)) =
      if (headerNames header).Nodup then
        .ok ⟨columnsOf (headerNames header) (rows.map fun row => cells (row.take header.length))⟩
      else .error .duplicateName := by
  have hwidth : 0 < header.length := List.length_pos_iff.mpr hheader.ne_nil
  have hbody := rows_of_writeLines hsep hwidth hrows
  have hscan := (hheader.fitsIn (.inl rfl)).scan_last hsep.notQuote hsep.ne_newline
    hheader.write_ne_nil
  have hbind (names : List String) (rows : Except CsvError (List (List (List (Option String))))) :
      (rows >>= fun rows => Except.ok (Table.mk (columnsOf names rows.flatten))) =
        (rows.map List.flatten).map fun rows => ⟨columnsOf names rows⟩ := by
    cases rows <;> rfl
  unfold tableOf
  rw [cutLine_writeLines (isSealed_writeRecord hsep hheader.plain)]
  dsimp only
  rw [hscan, List.headD_cons, ← headerNames, length_headerNames, ite_not, hbind, hbody]
  rfl

/-- What stands in front of the names is nothing to pass over. -/
theorem readRecords_writeLines (hsep : IsSeparator sep) (hheader : IsHeader sep header)
    (rows : List (List Field)) :
    readRecords (some (String.singleton sep)) (writeLines sep (header :: rows)) =
      tableOf sep (writeLines sep (header :: rows)) := by
  obtain ⟨c, line, hline⟩ := List.exists_cons_of_ne_nil hheader.write_ne_nil
  have hmark := hheader.unmarked
  have hbreak := hheader.newline_not_mem
  rw [hline] at hmark hbreak
  obtain ⟨rest, hrest⟩ : ∃ rest, writeLines sep (header :: rows) = c :: rest := by
    cases rows with
    | nil => exact ⟨line, by rw [writeLines, List.map_singleton, List.intercalate_singleton, hline]⟩
    | cons row rows =>
        rw [writeLines, List.map_cons, List.map_cons, List.intercalate_cons_cons, hline,
          List.append_assoc, List.cons_append]
        exact ⟨_, rfl⟩
  have hfeed : c ≠ '\n' := fun hc => hbreak (hc ▸ List.mem_cons_self)
  have hsingle : (some (String.singleton sep)).map String.toList = some [sep] := by simp
  unfold readRecords
  rw [hsingle]
  dsimp only
  rw [if_neg (Nat.not_le.mpr hsep.isAscii), hrest,
    Text.Utf8.dropByteOrderMark_of_head? (by simpa using hmark),
    List.dropWhile_cons_of_neg (by simpa using hfeed)]
  rfl

/-- The texts of written rows stand in the columns. -/
theorem texts_columnsOf (names : List String) (rows : List (List Field)) :
    Table.texts ⟨columnsOf names (rows.map fun row => cells (row.take names.length))⟩ =
      columnTexts names (rows.map (·.map Field.text)) := by
  have hcell (text : List Char) : ((textCell text).getD "").toList = text := by
    unfold textCell
    split
    next hempty =>
      rw [List.isEmpty_iff.mp hempty]
      rfl
    next => exact String.toList_ofList
  have hlength : (Table.texts ⟨columnsOf names (rows.map fun row =>
      cells (row.take names.length))⟩).length = names.length := by
    simp [Table.texts, columnsOf]
  refine List.ext_getElem (by simp [hlength, columnTexts]) fun place hplace _ => ?_
  rw [hlength] at hplace
  simp only [Table.texts, columnsOf, columnTexts, List.getElem_map, List.getElem_mapIdx,
    List.map_map]
  refine congrArg (Prod.mk _) (List.map_congr_left fun row _ => ?_)
  simp only [Function.comp_apply, cells, List.getElem?_map, List.getElem?_take_of_lt hplace]
  cases row[place]? with
  | none => rfl
  | some field => exact hcell field.text

/-- The texts of plain records below their names. -/
theorem map_texts_readRecords (hsep : IsSeparator sep) (hheader : IsHeader sep header)
    (hrows : ∀ row ∈ rows, IsRecord sep row) :
    (readRecords (some (String.singleton sep)) (writeLines sep (header :: rows))).map Table.texts =
      if (headerNames header).Nodup then
        .ok (columnTexts (headerNames header) (rows.map (·.map Field.text)))
      else .error .duplicateName := by
  rw [readRecords_writeLines hsep hheader, tableOf_writeLines hsep hheader hrows,
    ← length_headerNames, ← texts_columnsOf]
  split <;> rfl

/-- The records that are read are those that were written. -/
theorem readRecords_laws : ReaderLaws readRecords where
  names {sep header} hsep hheader hnames hnodup := by
    obtain ⟨heq, hdistinct⟩ := headerNames_eq (fun field hfield => (hnames field hfield).2) hnodup
    have hread := map_texts_readRecords hsep hheader (List.forall_mem_nil (IsRecord sep))
    rw [writeLines, List.map_singleton, List.intercalate_singleton, if_pos hdistinct, heq] at hread
    rw [hread]
    refine congrArg Except.ok (List.ext_getElem (by simp [columnTexts]) fun place _ _ => ?_)
    simp [columnTexts]
  rows {sep header rows} hsep hheader hrows := by
    have halone := readRecords_writeLines hsep hheader []
    rw [tableOf_writeLines hsep hheader (List.forall_mem_nil _), writeLines, List.map_singleton,
      List.intercalate_singleton] at halone
    rw [map_texts_readRecords hsep hheader hrows, halone]
    split
    next =>
      refine congrArg (fun names => Except.ok (columnTexts names _)) ?_
      refine List.ext_getElem (by simp [Table.names, columnsOf]) fun place _ _ => ?_
      simp [Table.names, columnsOf]
    next => rfl

end Table

end ColumnFormula.Csv
