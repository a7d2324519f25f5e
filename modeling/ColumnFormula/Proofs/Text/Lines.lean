import ColumnFormula.Text.Blank
import ColumnFormula.Text.Lines

/-!
# Lines that are joined and split again

Lines without line breaks that each end with a line feed are split into the same lines, and any
text is split apart at each of its line feeds. Plain characters, those of ASCII that can be
printed, are no line breaks, and of these only the space is blank.
-/

namespace ColumnFormula.Text

/-- Whether a character is one of the characters of ASCII that can be printed. -/
def IsPlain (c : Char) : Prop :=
  0x20 ≤ c.toNat ∧ c.toNat ≤ 0x7E

instance (c : Char) : Decidable (IsPlain c) :=
  inferInstanceAs (Decidable (_ ∧ _))

theorem isPlain_of_all {s : List Char} (h : s.all (IsPlain ·) = true) : ∀ c ∈ s, IsPlain c := by
  simpa using h

theorem IsPlain.isLineBreak_eq_false {c : Char} (h : IsPlain c) : isLineBreak c = false := by
  unfold IsPlain at h
  simp only [isLineBreak, Bool.or_eq_false_iff, Bool.and_eq_false_iff, decide_eq_false_iff_not,
    beq_eq_false_iff_ne]
  omega

theorem IsPlain.ne_newline {c : Char} (h : IsPlain c) : c ≠ '\n' := by
  rintro rfl
  exact absurd h.1 (by decide)

/-- Where a line ends stands a blank. -/
theorem isBlank_of_isLineBreak {c : Char} (h : isLineBreak c = true) :
    isBlank c = true := by
  simp only [isLineBreak, Bool.or_eq_true, Bool.and_eq_true, decide_eq_true_eq,
    beq_iff_eq] at h
  simp only [isBlank, isWhiteSpace, Bool.or_eq_true, Bool.and_eq_true,
    decide_eq_true_eq, beq_iff_eq]
  omega

theorem splitLines_cons {c : Char} (hc : isLineBreak c = false) (s : List Char) :
    splitLines (c :: s) = consLine c (splitLines s) := by
  have hreturn : c ≠ '\r' := by
    rintro rfl
    exact absurd hc (by decide)
  rw [splitLines.eq_def]
  split
  next heq => cases heq
  next heq => exact absurd (List.cons.inj heq).1 hreturn
  next heq =>
    obtain ⟨rfl, rfl⟩ := List.cons.inj heq
    rw [hc]
    rfl

/-- A line is split off at the line feed behind it. -/
theorem splitLines_append_newline {line : List Char} (hline : ∀ c ∈ line, isLineBreak c = false)
    (rest : List Char) : splitLines (line ++ '\n' :: rest) = line :: splitLines rest := by
  induction line with
  | nil => rfl
  | cons c line ih =>
      rw [List.forall_mem_cons] at hline
      rw [List.cons_append, splitLines_cons hline.1, ih hline.2]
      rfl

theorem splitLines_eq_singleton {line : List Char} (hline : ∀ c ∈ line, isLineBreak c = false)
    (hne : line ≠ []) : splitLines line = [line] := by
  induction line with
  | nil => exact absurd rfl hne
  | cons c line ih =>
      rw [List.forall_mem_cons] at hline
      rw [splitLines_cons hline.1]
      cases line with
      | nil => rfl
      | cons d line =>
          rw [ih hline.2 (List.cons_ne_nil d line)]
          rfl

/-- Lines are split as they were joined. -/
theorem splitLines_flatMap {lines : List (List Char)}
    (hlines : ∀ line ∈ lines, ∀ c ∈ line, isLineBreak c = false) :
    splitLines (lines.flatMap (· ++ ['\n'])) = lines := by
  induction lines with
  | nil => rfl
  | cons line lines ih =>
      rw [List.forall_mem_cons] at hlines
      rw [List.flatMap_cons, List.append_assoc, List.singleton_append,
        splitLines_append_newline hlines.1, ih hlines.2]

theorem consLine_append {lines : List (List Char)} (h : lines ≠ []) (c : Char)
    (rest : List (List Char)) : consLine c (lines ++ rest) = consLine c lines ++ rest := by
  cases lines with
  | nil => exact absurd rfl h
  | cons line lines => rfl

theorem splitLines_ne_nil {s : List Char} (h : s ≠ []) : splitLines s ≠ [] := by
  fun_cases splitLines s with
  | case1 => exact absurd rfl h
  | case2 => simp
  | case3 => simp
  | case4 c rest => cases splitLines rest <;> simp [consLine]

theorem splitLines_break {c : Char} (hc : isLineBreak c = true) {s : List Char}
    (h : c = '\r' → s.head? ≠ some '\n') : splitLines (c :: s) = [] :: splitLines s := by
  rw [splitLines, if_pos hc]
  rintro rest heq rfl
  exact h heq rfl

/-- What stands behind a line break is split on its own, whatever stands in front of it; only a
carriage return and a line feed behind it are not kept apart. -/
theorem splitLines_append_of_break {s t : List Char} {last : Char} (hlast : s.getLast? = some last)
    (hbreak : isLineBreak last = true) (ht : last = '\r' → t.head? ≠ some '\n') :
    splitLines (s ++ t) = splitLines s ++ splitLines t := by
  fun_induction splitLines s with
  | case1 => cases hlast
  | case2 rest ih =>
      cases rest with
      | nil => rfl
      | cons d rest =>
          rw [List.getLast?_cons_cons, List.getLast?_cons_cons] at hlast
          simp only [List.cons_append, splitLines] at ih ⊢
          rw [ih hlast]
  | case3 c rest hpair hc ih =>
      have hhead : c = '\r' → (rest ++ t).head? ≠ some '\n' := by
        rintro rfl
        cases rest with
        | nil => exact ht (Option.some.inj hlast).symm
        | cons d rest =>
            intro hd
            exact hpair rest rfl (by rw [Option.some.inj hd])
      rw [List.cons_append, splitLines_break hc hhead, List.cons_append]
      cases rest with
      | nil => rfl
      | cons d rest =>
          rw [List.getLast?_cons_cons] at hlast
          rw [ih hlast]
  | case4 c rest hpair hc ih =>
      cases rest with
      | nil =>
          obtain rfl := Option.some.inj hlast
          exact absurd hbreak hc
      | cons d rest =>
          rw [List.getLast?_cons_cons] at hlast
          rw [List.cons_append, splitLines_cons (Bool.not_eq_true _ ▸ hc), ih hlast]
          exact consLine_append (splitLines_ne_nil (List.cons_ne_nil d rest)) c _

/-- Lines behind a line feed are split on their own, whatever stands in front of it. -/
theorem splitLines_append_cons_newline (s t : List Char) :
    splitLines (s ++ '\n' :: t) = splitLines (s ++ ['\n']) ++ splitLines t := by
  have happend := splitLines_append_of_break (s := s ++ ['\n']) (t := t)
    List.getLast?_concat (by decide) (fun h => absurd h (by decide))
  rwa [List.append_assoc] at happend

/-! ## Pieces between separators -/

theorem unifyNewlines_append {s : List Char} (h : '\r' ∉ s) (t : List Char) :
    unifyNewlines (s ++ t) = s ++ unifyNewlines t := by
  induction s with
  | nil => rfl
  | cons c s ih =>
      rw [List.mem_cons, not_or] at h
      obtain ⟨hne, hrest⟩ := h
      rw [List.cons_append, unifyNewlines.eq_def]
      split
      next heq => cases heq
      next heq => exact absurd (List.cons.inj heq).1.symm hne
      next heq => exact absurd (List.cons.inj heq).1.symm hne
      next heq =>
        obtain ⟨rfl, rfl⟩ := List.cons.inj heq
        rw [ih hrest, List.cons_append]

theorem unifyNewlines_return {s : List Char} (h : s.head? ≠ some '\n') :
    unifyNewlines ('\r' :: s) = '\n' :: unifyNewlines s := by
  rw [unifyNewlines]
  rintro rest rfl
  exact h rfl

theorem unifyNewlines_eq_self {s : List Char} (h : '\r' ∉ s) : unifyNewlines s = s := by
  have happend := unifyNewlines_append h []
  rwa [List.append_nil, show unifyNewlines [] = [] from rfl, List.append_nil] at happend

theorem splitAtEach_of_not_mem {sep : Char} {s : List Char} (h : sep ∉ s) :
    splitAtEach sep s = [s] := by
  induction s with
  | nil => rfl
  | cons c s ih =>
      rw [List.mem_cons, not_or] at h
      rw [splitAtEach, if_neg (Ne.symm h.1), ih h.2]
      rfl

/-- A piece is split off at the separator behind it. -/
theorem splitAtEach_append_cons {sep : Char} {piece : List Char} (h : sep ∉ piece)
    (rest : List Char) :
    splitAtEach sep (piece ++ sep :: rest) = piece :: splitAtEach sep rest := by
  induction piece with
  | nil => exact if_pos rfl
  | cons c piece ih =>
      rw [List.mem_cons, not_or] at h
      rw [List.cons_append, splitAtEach, if_neg (Ne.symm h.1), ih h.2]
      rfl

/-- Pieces that each end with the separator are split as they were joined, and what stands
behind them is the last piece. -/
theorem splitAtEach_flatMap {sep : Char} {pieces : List (List Char)} {last : List Char}
    (hpieces : ∀ piece ∈ pieces, sep ∉ piece) (hlast : sep ∉ last) :
    splitAtEach sep (pieces.flatMap (· ++ [sep]) ++ last) = pieces ++ [last] := by
  induction pieces with
  | nil => exact splitAtEach_of_not_mem hlast
  | cons piece pieces ih =>
      obtain ⟨hpiece, hrest⟩ := List.forall_mem_cons.mp hpieces
      rw [List.flatMap_cons, List.append_assoc, List.append_assoc, List.singleton_append,
        splitAtEach_append_cons hpiece, ih hrest, List.cons_append]

theorem splitAtEach_ne_nil (sep : Char) (s : List Char) : splitAtEach sep s ≠ [] := by
  cases s with
  | nil => exact List.cons_ne_nil _ _
  | cons c s =>
      rw [splitAtEach]
      split
      · exact List.cons_ne_nil _ _
      · cases splitAtEach sep s <;> exact List.cons_ne_nil _ _

theorem of_mem_splitAtEach {sep c : Char} {s piece : List Char} (h : piece ∈ splitAtEach sep s)
    (hc : c ∈ piece) : c ∈ s ∧ c ≠ sep := by
  induction s generalizing piece with
  | nil =>
      rw [List.mem_singleton.mp h] at hc
      cases hc
  | cons d s ih =>
      rw [splitAtEach] at h
      split at h
      next =>
        rcases List.mem_cons.mp h with rfl | hrest
        · cases hc
        · exact (ih hrest hc).imp_left (List.mem_cons_of_mem d)
      next hd =>
        obtain ⟨first, rest, hsplit⟩ := List.exists_cons_of_ne_nil (splitAtEach_ne_nil sep s)
        rw [hsplit] at h ih
        rcases List.mem_cons.mp h with rfl | hrest
        · rcases List.mem_cons.mp hc with rfl | hc
          · exact ⟨List.mem_cons_self, hd⟩
          · exact (ih List.mem_cons_self hc).imp_left (List.mem_cons_of_mem d)
        · exact (ih (List.mem_cons_of_mem _ hrest) hc).imp_left (List.mem_cons_of_mem d)

theorem not_mem_of_mem_splitAtEach {sep : Char} {s piece : List Char}
    (h : piece ∈ splitAtEach sep s) : sep ∉ piece :=
  fun hmem => (of_mem_splitAtEach h hmem).2 rfl

/-- The pieces of a text, joined, are the text. -/
theorem intercalate_splitAtEach (sep : Char) (s : List Char) :
    [sep].intercalate (splitAtEach sep s) = s := by
  induction s with
  | nil => rfl
  | cons c s ih =>
      obtain ⟨first, rest, hsplit⟩ := List.exists_cons_of_ne_nil (splitAtEach_ne_nil sep s)
      rw [splitAtEach]
      rw [hsplit] at ih ⊢
      split
      next hc => rw [List.intercalate_cons_cons, ih, List.nil_append, hc, List.singleton_append]
      next =>
        cases rest with
        | nil => simpa [consLine] using ih
        | cons second rest =>
            rw [List.intercalate_cons_cons] at ih
            rw [consLine, List.intercalate_cons_cons, List.cons_append, List.cons_append, ih]

theorem intercalate_append {sep : Char} {front rest : List (List Char)} (hfront : front ≠ [])
    (hrest : rest ≠ []) :
    [sep].intercalate (front ++ rest) =
      [sep].intercalate front ++ sep :: [sep].intercalate rest := by
  induction front with
  | nil => exact absurd rfl hfront
  | cons piece front ih =>
      cases front with
      | nil =>
          rw [List.singleton_append, List.intercalate_cons_of_ne_nil hrest,
            List.intercalate_singleton, List.append_assoc, List.singleton_append]
      | cons second front =>
          rw [List.cons_append, List.cons_append, List.intercalate_cons_cons, ← List.cons_append,
            ih (List.cons_ne_nil _ _), List.intercalate_cons_cons]
          simp only [List.append_assoc]

/-- Texts are joined as their pieces are. -/
theorem intercalate_flatMap_splitAtEach (sep : Char) (texts : List (List Char)) :
    [sep].intercalate (texts.flatMap (splitAtEach sep)) = [sep].intercalate texts := by
  induction texts with
  | nil => rfl
  | cons text texts ih =>
      cases texts with
      | nil =>
          rw [List.flatMap_singleton, intercalate_splitAtEach, List.intercalate_singleton]
      | cons second texts =>
          have hrest : (second :: texts).flatMap (splitAtEach sep) ≠ [] := by
            rw [List.flatMap_cons]
            exact List.append_ne_nil_of_left_ne_nil (splitAtEach_ne_nil sep second) _
          rw [List.flatMap_cons, intercalate_append (splitAtEach_ne_nil sep text) hrest, ih,
            intercalate_splitAtEach, List.intercalate_cons_cons, List.append_assoc,
            List.singleton_append]

end ColumnFormula.Text
