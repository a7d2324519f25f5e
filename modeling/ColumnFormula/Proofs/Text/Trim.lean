import Mathlib.Data.List.TakeWhile
import ColumnFormula.Text.Blank

/-!
# Trimming

A trimmed text neither begins nor ends with a character of the trimmed class, and a text of
which this holds is left alone by trimming. So trimming twice is trimming once. What stands
around a text and is of the trimmed class is all that trimming takes away.
-/

namespace ColumnFormula.Text

variable {p : Char → Bool}

theorem dropWhile_eq_self {s : List Char} (h : ∀ c, s.head? = some c → p c = false) :
    s.dropWhile p = s := by
  cases s with
  | nil => rfl
  | cons c s => rw [List.dropWhile_cons_of_neg (by simp [h c rfl])]

theorem head?_dropWhile_false {s : List Char} {c : Char}
    (h : (s.dropWhile p).head? = some c) : p c = false := by
  have hhead := List.head?_dropWhile_not p s
  rw [h] at hhead
  simpa using hhead

theorem trimBy_eq_self {s : List Char} (hhead : ∀ c, s.head? = some c → p c = false)
    (hlast : ∀ c, s.getLast? = some c → p c = false) : trimBy p s = s := by
  unfold trimBy
  rw [dropWhile_eq_self hhead, dropWhile_eq_self, List.reverse_reverse]
  intro c hc
  exact hlast c (by rwa [List.head?_reverse] at hc)

theorem getLast?_trimBy {s : List Char} {c : Char} (h : (trimBy p s).getLast? = some c) :
    p c = false := by
  unfold trimBy at h
  rw [List.getLast?_reverse] at h
  exact head?_dropWhile_false h

theorem trimBy_prefix (s : List Char) : trimBy p s <+: s.dropWhile p := by
  have hsuffix := List.dropWhile_suffix (l := (s.dropWhile p).reverse) p
  have hbelow := List.reverse_prefix.mpr hsuffix
  rwa [List.reverse_reverse] at hbelow

theorem head?_trimBy {s : List Char} {c : Char} (h : (trimBy p s).head? = some c) :
    p c = false := by
  obtain ⟨rest, hrest⟩ := trimBy_prefix (p := p) s
  apply head?_dropWhile_false (s := s)
  rw [← hrest, List.head?_append, h]
  rfl

theorem trimBy_trimBy (s : List Char) : trimBy p (trimBy p s) = trimBy p s :=
  trimBy_eq_self (fun _ => head?_trimBy) (fun _ => getLast?_trimBy)

@[simp] theorem strip_strip (s : List Char) : strip (strip s) = strip s :=
  trimBy_trimBy s

/-- Whether a text neither begins nor ends with a blank. -/
def IsTrimmed (s : List Char) : Prop :=
  (∀ c, s.head? = some c → isBlank c = false) ∧ ∀ c, s.getLast? = some c → isBlank c = false

theorem isTrimmed_strip (s : List Char) : IsTrimmed (strip s) :=
  ⟨fun _ => head?_trimBy, fun _ => getLast?_trimBy⟩

theorem IsTrimmed.strip_eq {s : List Char} (h : IsTrimmed s) : strip s = s :=
  trimBy_eq_self h.1 h.2

theorem trimBy_dropWhile (s : List Char) : trimBy p (s.dropWhile p) = trimBy p s := by
  rw [trimBy, trimBy, dropWhile_eq_self fun _ => head?_dropWhile_false]

/-- A text that ends outside of the trimmed class is trimmed in front only. -/
theorem trimBy_eq_dropWhile {s : List Char} (hlast : ∀ c, s.getLast? = some c → p c = false) :
    trimBy p s = s.dropWhile p := by
  have hend : ∀ c, (s.dropWhile p).getLast? = some c → p c = false := by
    intro c hc
    apply hlast c
    rw [← List.takeWhile_append_dropWhile (p := p) (l := s), List.getLast?_append, hc]
    rfl
  rw [← trimBy_dropWhile, trimBy_eq_self (fun _ => head?_dropWhile_false) hend]

theorem dropWhile_append_of_ne_nil {s : List Char} (h : s.dropWhile p ≠ []) (t : List Char) :
    (s ++ t).dropWhile p = s.dropWhile p ++ t := by
  rw [List.dropWhile_append, if_neg (by simpa using h)]

/-- What is trimmed away in front of a text or behind it does not count. -/
theorem trimBy_append {before after : List Char} (hbefore : ∀ c ∈ before, p c = true)
    (s : List Char) (hafter : ∀ c ∈ after, p c = true) :
    trimBy p (before ++ s ++ after) = trimBy p s := by
  unfold trimBy
  rw [List.append_assoc, List.dropWhile_append_of_pos hbefore]
  by_cases hnil : s.dropWhile p = []
  · -- All of it is trimmed away.
    rw [List.dropWhile_append, hnil, List.dropWhile_eq_nil_iff.mpr hafter]
    rfl
  · rw [dropWhile_append_of_ne_nil hnil, List.reverse_append,
      List.dropWhile_append_of_pos (by simpa using hafter)]

theorem exists_append_trimBy (s : List Char) :
    ∃ before after, (∀ c ∈ before, p c = true) ∧ (∀ c ∈ after, p c = true) ∧
      before ++ trimBy p s ++ after = s := by
  refine ⟨s.takeWhile p, ((s.dropWhile p).reverse.takeWhile p).reverse, ?_, ?_, ?_⟩
  · intro c hc
    exact List.mem_takeWhile_imp hc
  · intro c hc
    exact List.mem_takeWhile_imp (List.mem_reverse.mp hc)
  · rw [trimBy, List.append_assoc, ← List.reverse_append, List.takeWhile_append_dropWhile,
      List.reverse_reverse, List.takeWhile_append_dropWhile]

/-- A text that is trimmed of fewer characters first is trimmed to the same. -/
theorem trimBy_trimBy_of_imp {q : Char → Bool} (h : ∀ c, q c = true → p c = true) (s : List Char) :
    trimBy p (trimBy q s) = trimBy p s := by
  obtain ⟨before, after, hbefore, hafter, hs⟩ := exists_append_trimBy (p := q) s
  have happend := trimBy_append (fun c hc => h c (hbefore c hc)) (trimBy q s)
    (fun c hc => h c (hafter c hc))
  rwa [hs, eq_comm] at happend

theorem isBlank_of_isWhiteSpace {c : Char} (h : isWhiteSpace c = true) : isBlank c = true := by
  rw [isBlank, h, Bool.true_or]

@[simp] theorem strip_stripWhiteSpace (s : List Char) : strip (stripWhiteSpace s) = strip s :=
  trimBy_trimBy_of_imp (fun _ => isBlank_of_isWhiteSpace) s

/-- Trimming keeps all characters outside of the trimmed class. -/
theorem mem_trimBy_iff {c : Char} (hc : p c = false) {s : List Char} : c ∈ trimBy p s ↔ c ∈ s := by
  obtain ⟨before, after, hbefore, hafter, hs⟩ := exists_append_trimBy (p := p) s
  have hfront : c ∉ before := fun hmem => by simp [hbefore c hmem] at hc
  have hback : c ∉ after := fun hmem => by simp [hafter c hmem] at hc
  have hmem : c ∈ s ↔ c ∈ before ++ trimBy p s ++ after := by rw [hs]
  simp [hmem, hfront, hback]

theorem trimBy_eq_nil_iff {s : List Char} : trimBy p s = [] ↔ ∀ c ∈ s, p c = true := by
  constructor
  · intro hnil c hc
    by_contra hkept
    have hmem := (mem_trimBy_iff (Bool.not_eq_true _ |>.mp hkept)).mpr hc
    rw [hnil] at hmem
    cases hmem
  · intro hs
    rw [trimBy, List.dropWhile_eq_nil_iff.mpr hs]
    rfl

theorem sublist_dropWhile {s t : List Char} (h : s.Sublist t) :
    (s.dropWhile p).Sublist (t.dropWhile p) := by
  induction h with
  | slnil => exact .slnil
  | cons c h ih =>
      rw [List.dropWhile_cons]
      split
      · exact ih
      · exact ((List.dropWhile_sublist p).trans h).cons c
  | cons_cons c h ih =>
      rw [List.dropWhile_cons, List.dropWhile_cons]
      split
      · exact ih
      · exact h.cons_cons c

theorem sublist_trimBy {s t : List Char} (h : s.Sublist t) :
    (trimBy p s).Sublist (trimBy p t) :=
  (sublist_dropWhile (sublist_dropWhile h).reverse).reverse

/-- A text that is kept at both of its ends is trimmed there on its own. -/
theorem trimBy_append_append {s t : List Char} (hs : ¬∀ c ∈ s, p c = true)
    (ht : ¬∀ c ∈ t, p c = true) (between : List Char) :
    trimBy p (s ++ (between ++ t)) =
      s.dropWhile p ++ (between ++ (t.reverse.dropWhile p).reverse) := by
  have hfront : s.dropWhile p ≠ [] := fun hnil => hs (List.dropWhile_eq_nil_iff.mp hnil)
  have hback : t.reverse.dropWhile p ≠ [] := by
    intro hnil
    exact ht fun c hc => List.dropWhile_eq_nil_iff.mp hnil c (List.mem_reverse.mpr hc)
  rw [trimBy, dropWhile_append_of_ne_nil hfront, List.reverse_append, List.reverse_append,
    List.append_assoc, dropWhile_append_of_ne_nil hback, List.reverse_append, List.reverse_append,
    List.reverse_reverse, List.reverse_reverse, List.append_assoc]

/-- Trimming takes no characters away but those of the trimmed class. -/
theorem countP_trimBy (s : List Char) :
    (trimBy p s).countP (fun c => !p c) = s.countP fun c => !p c := by
  obtain ⟨before, after, hbefore, hafter, hs⟩ := exists_append_trimBy (p := p) s
  have hfront : before.countP (fun c => !p c) = 0 :=
    List.countP_eq_zero.mpr fun c hc => by simp [hbefore c hc]
  have hback : after.countP (fun c => !p c) = 0 :=
    List.countP_eq_zero.mpr fun c hc => by simp [hafter c hc]
  have hcount := congrArg (List.countP fun c => !p c) hs
  rwa [List.countP_append, List.countP_append, hfront, hback, Nat.zero_add,
    Nat.add_zero] at hcount

end ColumnFormula.Text
