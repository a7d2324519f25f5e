import Mathlib.Data.List.Infix
import ColumnFormula.Proofs.Text.Lines
import ColumnFormula.Proofs.Text.Trim

/-!
# Texts without their blank lines

Of a text that stands between others, only the lines between its first and its last one can be
blank. Where those that are blank are left out, the trimmed text is another one, unless each of
them is white space with nothing else in front of it or nothing else behind it.
-/

namespace ColumnFormula.Text

/-- Whether a line has no characters but blanks. -/
def isBlankLine (line : List Char) : Bool :=
  (strip line).isEmpty

/-- Whether a text has no characters but white space. -/
def IsWhite (s : List Char) : Prop :=
  ∀ c ∈ s, isWhiteSpace c = true

/-- The lines that are not blank, and the last one. -/
def keptLines : List (List Char) → List (List Char)
  | [] => []
  | [last] => [last]
  | line :: lines => if isBlankLine line then keptLines lines else line :: keptLines lines

/-- A text without the blank lines between its first and its last one. -/
def withoutBlankLines (s : List Char) : List Char :=
  match splitAtEach '\n' s with
  | [] => []
  | first :: rest => ['\n'].intercalate (first :: keptLines rest)

/-- Whether the lines that are left out of some lines are white space with nothing but white
space in front of them or behind them. -/
def OnlyOuter (front rest : List (List Char)) : Prop :=
  ∀ before line after, rest = before ++ line :: after → after ≠ [] → isBlankLine line = true →
    IsWhite line ∧ ((∀ other ∈ front ++ before, IsWhite other) ∨ ∀ other ∈ after, IsWhite other)

/-- Whether nothing but white space around a text is lost with its blank lines. -/
def KeepsLines (s : List Char) : Prop :=
  match splitAtEach '\n' s with
  | [] => True
  | first :: rest => OnlyOuter [first] rest

theorem isWhite_nil : IsWhite [] :=
  List.forall_mem_nil _

theorem isWhite_append {s t : List Char} : IsWhite (s ++ t) ↔ IsWhite s ∧ IsWhite t :=
  List.forall_mem_append

theorem isWhite_newline_cons {s : List Char} : IsWhite ('\n' :: s) ↔ IsWhite s := by
  unfold IsWhite
  rw [List.forall_mem_cons, and_iff_right (by decide)]

theorem isWhite_newline : IsWhite ['\n'] :=
  isWhite_newline_cons.mpr isWhite_nil

theorem isWhite_intercalate {lines : List (List Char)} :
    IsWhite (['\n'].intercalate lines) ↔ ∀ line ∈ lines, IsWhite line := by
  induction lines with
  | nil => simp [IsWhite]
  | cons line lines ih =>
      cases lines with
      | nil => rw [List.intercalate_singleton, List.forall_mem_singleton]
      | cons second lines =>
          rw [List.intercalate_cons_cons, List.append_assoc, List.singleton_append,
            isWhite_append, isWhite_newline_cons, ih, List.forall_mem_cons (l := second :: lines)]

/-! ## Leaving out one line -/

/-- A line between others may be left out of a text that is trimmed if it is trimmed away. -/
theorem stripWhiteSpace_line_iff {front line back : List Char} :
    stripWhiteSpace (front ++ '\n' :: back) =
        stripWhiteSpace (front ++ '\n' :: (line ++ '\n' :: back)) ↔
      IsWhite line ∧ (IsWhite front ∨ IsWhite back) := by
  constructor
  · intro h
    have hwhite : IsWhite line := by
      have hcount := congrArg (List.countP fun c => !isWhiteSpace c) h
      rw [stripWhiteSpace, stripWhiteSpace, countP_trimBy, countP_trimBy] at hcount
      have hzero : line.countP (fun c => !isWhiteSpace c) = 0 := by
        simp only [List.countP_append, List.countP_cons] at hcount
        omega
      intro c hc
      simpa using List.countP_eq_zero.mp hzero c hc
    refine ⟨hwhite, ?_⟩
    by_contra hneither
    rw [not_or] at hneither
    -- Both trimmed texts keep all that stands between the two ends.
    have hshort := trimBy_append_append hneither.1 hneither.2 ['\n']
    have hlong := trimBy_append_append hneither.1 hneither.2 ('\n' :: (line ++ ['\n']))
    rw [List.singleton_append] at hshort
    rw [List.cons_append, List.append_assoc, List.singleton_append] at hlong
    rw [stripWhiteSpace, stripWhiteSpace, hshort, hlong] at h
    have hlength := congrArg List.length h
    simp only [List.length_append, List.length_cons, List.length_nil] at hlength
    omega
  · rintro ⟨hwhite, hfront | hback⟩
    · have hline : IsWhite (front ++ ['\n']) := isWhite_append.mpr ⟨hfront, isWhite_newline⟩
      have hlines : IsWhite (front ++ ['\n'] ++ (line ++ ['\n'])) :=
        isWhite_append.mpr ⟨hline, isWhite_append.mpr ⟨hwhite, isWhite_newline⟩⟩
      have hshort := trimBy_append hline back isWhite_nil
      have hlong := trimBy_append hlines back isWhite_nil
      simp only [List.append_assoc, List.cons_append, List.nil_append,
        List.append_nil] at hshort hlong
      exact hshort.trans hlong.symm
    · have hline : IsWhite ('\n' :: back) := isWhite_newline_cons.mpr hback
      have hlines : IsWhite ('\n' :: (line ++ '\n' :: back)) :=
        isWhite_newline_cons.mpr (isWhite_append.mpr ⟨hwhite, hline⟩)
      exact (trimBy_append isWhite_nil front hline).trans
        (trimBy_append isWhite_nil front hlines).symm

/-! ## Leaving out all of them -/

/-- Leaving out more leaves less, so where two steps do not change a trimmed text, neither does. -/
theorem stripWhiteSpace_eq_iff_of_sublist {short middle long : List Char}
    (hless : short.Sublist middle) (hmore : middle.Sublist long) :
    stripWhiteSpace short = stripWhiteSpace long ↔
      stripWhiteSpace short = stripWhiteSpace middle ∧
        stripWhiteSpace middle = stripWhiteSpace long := by
  refine ⟨fun h => ?_, fun h => h.1.trans h.2⟩
  have hlonger : (stripWhiteSpace middle).Sublist (stripWhiteSpace long) := sublist_trimBy hmore
  rw [← h] at hlonger
  have hfirst := (sublist_trimBy hless).antisymm hlonger
  exact ⟨hfirst, hfirst.symm.trans h⟩

theorem keptLines_ne_nil {lines : List (List Char)} (h : lines ≠ []) : keptLines lines ≠ [] := by
  fun_induction keptLines lines with
  | case1 => exact h
  | case2 => exact List.cons_ne_nil _ _
  | case3 line lines hne hblank ih => exact ih hne
  | case4 => exact List.cons_ne_nil _ _

theorem keptLines_sublist (lines : List (List Char)) : (keptLines lines).Sublist lines := by
  fun_induction keptLines lines with
  | case1 => exact .slnil
  | case2 => exact .refl _
  | case3 line lines hne hblank ih => exact ih.cons line
  | case4 line lines hne hblank ih => exact ih.cons_cons line

theorem sublist_intercalate {lines kept : List (List Char)} (h : kept.Sublist lines) :
    (['\n'].intercalate kept).Sublist (['\n'].intercalate lines) := by
  induction h with
  | slnil => exact .refl _
  | @cons kept lines line h ih =>
      cases lines with
      | nil =>
          rw [List.sublist_nil.mp h]
          exact List.nil_sublist _
      | cons second lines =>
          rw [List.intercalate_cons_cons]
          exact ih.trans (List.sublist_append_right _ _)
  | @cons_cons kept lines line h ih =>
      cases kept with
      | nil =>
          rw [List.intercalate_singleton]
          cases lines with
          | nil => rw [List.intercalate_singleton]
          | cons second lines =>
              rw [List.intercalate_cons_cons, List.append_assoc]
              exact List.sublist_append_left _ _
      | cons other kept =>
          have hne : lines ≠ [] := by
            rintro rfl
            exact List.cons_ne_nil _ _ (List.sublist_nil.mp h)
          rw [List.intercalate_cons_of_ne_nil (List.cons_ne_nil _ _),
            List.intercalate_cons_of_ne_nil hne]
          exact ih.append_left _

theorem withoutBlankLines_sublist (s : List Char) : (withoutBlankLines s).Sublist s := by
  have hjoined := intercalate_splitAtEach '\n' s
  unfold withoutBlankLines
  split
  next => exact List.nil_sublist _
  next first rest heq =>
    rw [heq] at hjoined
    conv_rhs => rw [← hjoined]
    exact sublist_intercalate ((keptLines_sublist rest).cons_cons first)

theorem onlyOuter_singleton (front : List (List Char)) (last : List Char) :
    OnlyOuter front [last] := by
  intro before line after hlines hafter
  have hlength := congrArg List.length hlines
  have hpos := List.length_pos_iff.mpr hafter
  simp only [List.length_append, List.length_cons, List.length_nil] at hlength
  omega

theorem onlyOuter_cons {front rest : List (List Char)} {line : List Char} (hrest : rest ≠ []) :
    OnlyOuter front (line :: rest) ↔
      (isBlankLine line = true →
        IsWhite line ∧ ((∀ other ∈ front, IsWhite other) ∨ ∀ other ∈ rest, IsWhite other)) ∧
        OnlyOuter (front ++ [line]) rest := by
  constructor
  · intro h
    constructor
    · have hline := h [] line rest rfl hrest
      rwa [List.append_nil] at hline
    · rintro before other after rfl hafter hblank
      rw [← List.append_cons]
      exact h (line :: before) other after rfl hafter hblank
  · rintro ⟨hline, hbehind⟩ before other after hlines hafter hblank
    cases before with
    | nil =>
        obtain ⟨rfl, rfl⟩ := List.cons.inj hlines
        rw [List.append_nil]
        exact hline hblank
    | cons first before =>
        obtain ⟨rfl, hbefore⟩ := List.cons.inj hlines
        rw [List.append_cons]
        exact hbehind before other after hbefore hafter hblank

/-- A line of white space in front of the others does not count. -/
theorem onlyOuter_concat {front rest : List (List Char)} {line : List Char}
    (hline : IsWhite line) : OnlyOuter (front ++ [line]) rest ↔ OnlyOuter front rest := by
  have hfront (before : List (List Char)) : (∀ other ∈ front ++ [line] ++ before, IsWhite other) ↔
      ∀ other ∈ front ++ before, IsWhite other := by
    simp only [List.forall_mem_append, List.forall_mem_singleton, hline, and_true]
  unfold OnlyOuter
  simp only [hfront]

/-- The blank lines of some lines may be left out of a text that is trimmed if each of them is
trimmed away. -/
theorem stripWhiteSpace_keptLines_iff {front rest : List (List Char)} (hfront : front ≠ [])
    (hrest : rest ≠ []) :
    stripWhiteSpace (['\n'].intercalate (front ++ keptLines rest)) =
        stripWhiteSpace (['\n'].intercalate (front ++ rest)) ↔
      OnlyOuter front rest := by
  induction rest generalizing front with
  | nil => exact absurd rfl hrest
  | cons line rest ih =>
      by_cases hlast : rest = []
      · subst hlast
        exact iff_of_true rfl (onlyOuter_singleton front line)
      rw [onlyOuter_cons hlast, keptLines.eq_3 _ _ hlast]
      split
      next hblank =>
        have hkept := ih hfront hlast
        have hline : stripWhiteSpace (['\n'].intercalate (front ++ rest)) =
              stripWhiteSpace (['\n'].intercalate (front ++ line :: rest)) ↔
            IsWhite line ∧
              ((∀ other ∈ front, IsWhite other) ∨ ∀ other ∈ rest, IsWhite other) := by
          rw [intercalate_append hfront hlast, intercalate_append hfront (List.cons_ne_nil _ _),
            List.intercalate_cons_of_ne_nil hlast, List.append_assoc, List.singleton_append,
            stripWhiteSpace_line_iff, isWhite_intercalate, isWhite_intercalate]
        have hless : (['\n'].intercalate (front ++ keptLines rest)).Sublist
            (['\n'].intercalate (front ++ rest)) :=
          sublist_intercalate ((keptLines_sublist rest).append_left front)
        have hmore : (['\n'].intercalate (front ++ rest)).Sublist
            (['\n'].intercalate (front ++ line :: rest)) :=
          sublist_intercalate ((List.sublist_cons_self line rest).append_left front)
        rw [stripWhiteSpace_eq_iff_of_sublist hless hmore, hkept, hline]
        constructor
        · rintro ⟨hbehind, houter⟩
          exact ⟨fun _ => houter, (onlyOuter_concat houter.1).mpr hbehind⟩
        · rintro ⟨houter, hbehind⟩
          exact ⟨(onlyOuter_concat (houter hblank).1).mp hbehind, houter hblank⟩
      next hblank =>
        have hkept := ih (List.append_ne_nil_of_left_ne_nil hfront [line]) hlast
        rw [← List.append_cons, ← List.append_cons] at hkept
        rw [hkept, and_iff_right fun h => absurd h hblank]

/-- A text that is trimmed is the same without its blank lines if and only if nothing but white
space around it is lost with them. -/
theorem stripWhiteSpace_withoutBlankLines_iff (s : List Char) :
    stripWhiteSpace (withoutBlankLines s) = stripWhiteSpace s ↔ KeepsLines s := by
  have hjoined := intercalate_splitAtEach '\n' s
  unfold withoutBlankLines KeepsLines
  split
  next heq => exact absurd heq (splitAtEach_ne_nil _ _)
  next first rest heq =>
    rw [heq] at hjoined
    by_cases hrest : rest = []
    · subst hrest
      rw [← hjoined]
      exact iff_of_true rfl fun _ _ _ h => by simp at h
    · have hkept := stripWhiteSpace_keptLines_iff (List.cons_ne_nil first []) hrest
      rwa [List.singleton_append, List.singleton_append, hjoined] at hkept

example : withoutBlankLines "\n\na\n \nb\n\n".toList = "\na\nb\n".toList := by
  decide

end ColumnFormula.Text
