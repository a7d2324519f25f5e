import ColumnFormula.Proofs.Table.ReadBack
import ColumnFormula.Proofs.Text.BlankLines

/-!
# Rows of quoted fields

A row that is written with every field between quotes may have line feeds in them. The lines of
such a row that are blank stand in its fields, each between the first and the last line of one, so
where blank lines are dropped from a row they are dropped from its fields.
-/

namespace ColumnFormula.Csv

/-- The text of a row of quoted fields. -/
def writeQuoted (sep : Char) (texts : List (List Char)) : List Char :=
  writeRecord sep (texts.map Field.quoted)

/-- The lines of a text that are not blank. -/
def filledLines (s : List Char) : List (List Char) :=
  (Text.splitAtEach '\n' s).filter fun line => !Text.isBlankLine line

/-- Whether a text becomes another one where blank lines are dropped, behind a line that is not
blank. -/
def DropsTo (s t : List Char) : Prop :=
  ∀ line, '\n' ∉ line → '"' ∈ line → filledLines (line ++ s) = Text.splitAtEach '\n' (line ++ t)

variable {sep : Char} {s t : List Char} {texts : List (List Char)}

theorem writeQuoted_cons (text : List Char) (texts : List (List Char)) :
    writeQuoted sep (text :: texts) =
      (Field.quoted text).write ++ texts.flatMap fun text => sep :: (Field.quoted text).write := by
  rw [writeQuoted, List.map_cons, writeRecord_cons, List.flatMap_map]

/-! ## Lines of quoted fields -/

theorem escape_append (s t : List Char) : escape (s ++ t) = escape s ++ escape t := by
  induction s with
  | nil => rfl
  | cons c s ih =>
      rw [List.cons_append, escape, escape, ih]
      split <;> rfl

theorem escape_intercalate (line : List Char) {lines : List (List Char)} (hne : lines ≠ []) :
    escape (['\n'].intercalate (line :: lines)) =
      escape line ++ '\n' :: escape (['\n'].intercalate lines) := by
  rw [List.intercalate_cons_of_ne_nil hne, escape_append, escape_append, List.append_assoc]
  rfl

theorem isBlankLine_iff {line : List Char} :
    Text.isBlankLine line = true ↔ ∀ c ∈ line, Text.isBlank c = true := by
  rw [Text.isBlankLine, List.isEmpty_iff, Text.strip, Text.trimBy_eq_nil_iff]

theorem isBlankLine_escape (line : List Char) :
    Text.isBlankLine (escape line) = Text.isBlankLine line := by
  rw [Bool.eq_iff_iff, isBlankLine_iff, isBlankLine_iff]
  simp only [mem_escape_iff]

theorem isBlankLine_of_quote {line : List Char} (h : '"' ∈ line) :
    Text.isBlankLine line = false := by
  rw [← Bool.not_eq_true, isBlankLine_iff]
  exact fun hblank => absurd (hblank _ h) (by decide)

theorem filledLines_append_newline {line : List Char} (hline : '\n' ∉ line) (s : List Char) :
    filledLines (line ++ '\n' :: s) =
      [line].filter (fun line => !Text.isBlankLine line) ++ filledLines s := by
  rw [filledLines, Text.splitAtEach_append_cons hline, filledLines, ← List.filter_append,
    List.singleton_append]

theorem filledLines_of_quote {line : List Char} (hline : '\n' ∉ line) (hquote : '"' ∈ line) :
    filledLines line = [line] := by
  rw [filledLines, Text.splitAtEach_of_not_mem hline,
    List.filter_cons_of_pos (by simp [isBlankLine_of_quote hquote]), List.filter_nil]

/-- The lines of a field behind its first line. -/
theorem filledLines_lines {lines : List (List Char)} (hne : lines ≠ [])
    (hlines : ∀ line ∈ lines, '\n' ∉ line) (h : DropsTo s t) :
    filledLines (escape (['\n'].intercalate lines) ++ '"' :: s) =
      Text.splitAtEach '\n' (escape (['\n'].intercalate (Text.keptLines lines)) ++ '"' :: t) := by
  induction lines with
  | nil => exact absurd rfl hne
  | cons line lines ih =>
      rw [List.forall_mem_cons] at hlines
      have hline : '\n' ∉ escape line := fun hmem => hlines.1 (mem_escape_iff.mp hmem)
      by_cases hlast : lines = []
      · subst hlast
        have hquote := h (escape line ++ ['"']) (by simp [hline]) (by simp)
        rw [List.append_assoc, List.append_assoc, List.singleton_append,
          List.singleton_append] at hquote
        rwa [Text.keptLines.eq_2, List.intercalate_singleton]
      · rw [escape_intercalate line hlast, List.append_assoc, List.cons_append,
          filledLines_append_newline hline, ih hlast hlines.2, Text.keptLines.eq_3 _ _ hlast]
        split
        next hblank =>
          rw [List.filter_cons_of_neg (by simp [isBlankLine_escape, hblank]), List.filter_nil,
            List.nil_append]
        next hblank =>
          rw [escape_intercalate line (Text.keptLines_ne_nil hlast), List.append_assoc,
            List.cons_append, Text.splitAtEach_append_cons hline,
            List.filter_cons_of_pos (by simp [isBlankLine_escape, hblank]), List.filter_nil,
            List.singleton_append]

/-- From a field the blank lines between its first and its last line are dropped. -/
theorem filledLines_write {line : List Char} (hline : '\n' ∉ line) (text : List Char)
    (h : DropsTo s t) :
    filledLines (line ++ ((Field.quoted text).write ++ s)) =
      Text.splitAtEach '\n' (line ++ ((Field.quoted (Text.withoutBlankLines text)).write ++ t)) := by
  have hjoined := Text.intercalate_splitAtEach '\n' text
  have hpieces : ∀ piece ∈ Text.splitAtEach '\n' text, '\n' ∉ piece :=
    fun _ => Text.not_mem_of_mem_splitAtEach
  have hwrite (text u : List Char) : line ++ ((Field.quoted text).write ++ u) =
      line ++ ['"'] ++ (escape text ++ '"' :: u) := by
    simp [Field.write]
  rw [hwrite, hwrite]
  unfold Text.withoutBlankLines
  split
  next heq => exact absurd heq (Text.splitAtEach_ne_nil _ _)
  next first rest heq =>
    rw [heq] at hjoined hpieces
    rw [List.forall_mem_cons] at hpieces
    obtain ⟨front, hfront⟩ : ∃ front, line ++ ['"'] ++ escape first = front := ⟨_, rfl⟩
    have hfirst : '\n' ∉ front := by
      have hescape : '\n' ∉ escape first := fun hmem => hpieces.1 (mem_escape_iff.mp hmem)
      simp [← hfront, hline, hescape]
    have hquote : '"' ∈ front := by simp [← hfront]
    by_cases hrest : rest = []
    · subst hrest
      have hlast := h (front ++ ['"']) (by simpa using hfirst) (by simp)
      rw [List.intercalate_singleton] at hjoined
      rw [← hjoined, Text.keptLines.eq_1, List.intercalate_singleton, ← List.append_assoc,
        ← List.append_assoc, hfront]
      rwa [List.append_assoc, List.append_assoc] at hlast
    · have hlines (lines : List (List Char)) (hne : lines ≠ []) (u : List Char) :
          line ++ ['"'] ++ (escape (['\n'].intercalate (first :: lines)) ++ '"' :: u) =
            front ++ '\n' :: (escape (['\n'].intercalate lines) ++ '"' :: u) := by
        rw [escape_intercalate first hne, ← hfront]
        simp only [List.append_assoc, List.cons_append]
      rw [← hjoined, hlines rest hrest, hlines _ (Text.keptLines_ne_nil hrest),
        filledLines_append_newline hfirst, Text.splitAtEach_append_cons hfirst,
        filledLines_lines hrest hpieces.2 h,
        List.filter_cons_of_pos (by simp [isBlankLine_of_quote hquote]), List.filter_nil,
        List.singleton_append]

/-- Where blank lines are dropped from a row, they are dropped from its fields. -/
theorem filledLines_writeQuoted (hline : sep ≠ '\n') (hne : texts ≠ []) :
    filledLines (writeQuoted sep texts) =
      Text.splitAtEach '\n' (writeQuoted sep (texts.map Text.withoutBlankLines)) := by
  have hfields (texts : List (List Char)) :
      DropsTo (texts.flatMap fun text => sep :: (Field.quoted text).write)
        ((texts.map Text.withoutBlankLines).flatMap fun text =>
          sep :: (Field.quoted text).write) := by
    induction texts with
    | nil =>
        intro line hfeed hquote
        rw [List.flatMap_nil, List.map_nil, List.flatMap_nil, List.append_nil,
          filledLines_of_quote hfeed hquote, Text.splitAtEach_of_not_mem hfeed]
    | cons text texts ih =>
        intro line hfeed hquote
        have hsep : '\n' ∉ line ++ [sep] := by simp [hfeed, hline.symm]
        have hwrite := filledLines_write hsep text ih
        rw [List.append_assoc, List.append_assoc, List.singleton_append,
          List.singleton_append] at hwrite
        rwa [List.flatMap_cons, List.map_cons, List.flatMap_cons, List.cons_append,
          List.cons_append]
  obtain ⟨text, texts, rfl⟩ := List.exists_cons_of_ne_nil hne
  rw [List.map_cons, writeQuoted_cons, writeQuoted_cons]
  have hnil : '\n' ∉ ([] : List Char) := List.not_mem_nil
  exact filledLines_write hnil text (hfields texts)

end ColumnFormula.Csv
