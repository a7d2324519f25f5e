import Mathlib.Data.Nat.Bitwise
import ColumnFormula.Proofs.Lookup
import ColumnFormula.Proofs.Text.Trim
import ColumnFormula.Text.CaseMap

/-!
# Texts in upper case

A character whose upper case is not itself stands in the tables, and so do the characters of its
upper case. None of the latter is among the former, is blank, or is an opening parenthesis, as a
look at the tables shows. So a text in upper case stays as it is when it is put into upper case
again, and it is trimmed if the text was.
-/

namespace ColumnFormula.Text

/-! ## Sets of code points -/

/-- Some numbers as a set: each of them is a bit. -/
def bitsOf (points : List Nat) : Nat :=
  points.foldr (fun n bits => 1 <<< n ||| bits) 0

/-- The numbers in some lists as a set. -/
def bitsOfAll (lists : List (List Nat)) : Nat :=
  lists.foldr (fun points bits => bitsOf points ||| bits) 0

theorem testBit_bitsOf {points : List Nat} {n : Nat} :
    (bitsOf points).testBit n = true ↔ n ∈ points := by
  induction points with
  | nil => simp [bitsOf]
  | cons first points ih =>
      have hcons : bitsOf (first :: points) = 2 ^ first ||| bitsOf points := by
        rw [bitsOf, List.foldr_cons, Nat.one_shiftLeft, bitsOf]
      rw [hcons, Nat.testBit_or, Nat.testBit_two_pow, Bool.or_eq_true, ih, decide_eq_true_eq,
        List.mem_cons, eq_comm]

theorem testBit_bitsOfAll {lists : List (List Nat)} {n : Nat} :
    (bitsOfAll lists).testBit n = true ↔ n ∈ lists.flatten := by
  induction lists with
  | nil => simp [bitsOfAll]
  | cons points lists ih =>
      have hcons : bitsOfAll (points :: lists) = bitsOf points ||| bitsOfAll lists := rfl
      rw [hcons, Nat.testBit_or, Bool.or_eq_true, testBit_bitsOf, ih, List.flatten_cons,
        List.mem_append]

/-- Sets without a common bit have no common number. -/
theorem not_mem_of_and_eq_zero {lists others : List (List Nat)}
    (h : bitsOfAll lists &&& bitsOfAll others = 0) {n : Nat} (hn : n ∈ others.flatten) :
    n ∉ lists.flatten := by
  intro hmem
  have hbit := congrArg (Nat.testBit · n) h
  simp only [Nat.testBit_and, testBit_bitsOfAll.mpr hmem, testBit_bitsOfAll.mpr hn,
    Nat.zero_testBit] at hbit
  cases hbit

/-! ## The tables -/

/-- The code points of a span. -/
def CaseSpan.points (span : CaseSpan) : List Nat :=
  (List.range ((span.last - span.first) / span.stride + 1)).map (span.first + span.stride * ·)

/-- The code points that those of a span are mapped to. -/
def CaseSpan.images (span : CaseSpan) : List Nat :=
  span.points.map fun n : Nat => (n + span.offset).toNat

/-- The code points that have another upper case than themselves. -/
def upperPoints : List (List Nat) :=
  upperSpans.map CaseSpan.points ++ upperExpansions.map fun expansion => [expansion.1]

/-- The code points of these upper cases. -/
def upperImages : List (List Nat) :=
  upperSpans.map CaseSpan.images ++ upperExpansions.map (·.2)

/-- Whether a code point is that of a character, other than blanks and opening parentheses. -/
def isSolid (n : Nat) : Bool :=
  decide n.isValidChar && !isBlank (Char.ofNat n) && n != 40

-- One number for each table: looking up each image among the points would take minutes.
theorem upperImages_disjoint : bitsOfAll upperPoints &&& bitsOfAll upperImages = 0 := by
  decide +kernel

theorem upperImages_isSolid : upperImages.all (·.all isSolid) = true := by
  decide +kernel

theorem upperExpansions_ne_nil : upperExpansions.all (!·.2.isEmpty) = true := by
  decide +kernel

/-! ## One character -/

theorem CaseSpan.mem_points {span : CaseSpan} {n : Nat} (hfirst : span.first ≤ n)
    (hlast : n ≤ span.last) (hstride : (n - span.first) % span.stride = 0) : n ∈ span.points := by
  refine List.mem_map.mpr ⟨(n - span.first) / span.stride, List.mem_range.mpr ?_, ?_⟩
  · exact Nat.lt_succ_of_le (Nat.div_le_div_right (by omega))
  · rw [Nat.mul_div_cancel' (Nat.dvd_of_mod_eq_zero hstride)]
    omega

/-- A code point is its own image, or it is in a span and so is its image. -/
theorem shiftIn_cases (spans : List CaseSpan) (n : Nat) :
    shiftIn spans n = n ∨
      ∃ span ∈ spans, n ∈ span.points ∧ shiftIn spans n ∈ span.images := by
  induction spans with
  | nil => exact .inl rfl
  | cons span spans ih =>
      unfold shiftIn
      split
      next => exact .inl rfl
      next hfirst =>
        split
        next hwithin =>
          refine .inr ⟨span, List.mem_cons_self, ?_⟩
          rw [Bool.and_eq_true, decide_eq_true_eq, beq_iff_eq] at hwithin
          have hpoint := CaseSpan.mem_points (by omega) hwithin.1 hwithin.2
          exact ⟨hpoint, List.mem_map_of_mem hpoint⟩
        next =>
          rcases ih with heq | ⟨other, hother, hpoint⟩
          · exact .inl heq
          · exact .inr ⟨other, List.mem_cons_of_mem _ hother, hpoint⟩

/-- A character is its own upper case, or the tables tell it and its upper case. -/
theorem upperChar_cases (c : Char) :
    upperChar c = [c] ∨
      (c.toNat ∈ upperPoints.flatten ∧ ∃ image : List Nat, upperChar c = image.map Char.ofNat ∧
        image ≠ [] ∧ ∀ n ∈ image, n ∈ upperImages.flatten) := by
  unfold upperChar mapCase
  split
  next image hlookup =>
    have hmem := mem_of_lookup hlookup
    have hne := List.all_eq_true.mp upperExpansions_ne_nil _ hmem
    refine .inr ⟨?_, image, rfl, by simpa using hne, fun n hn => ?_⟩
    · exact List.mem_flatten.mpr ⟨[c.toNat],
        List.mem_append_right _ (List.mem_map.mpr ⟨_, hmem, rfl⟩), List.mem_singleton_self _⟩
    · exact List.mem_flatten.mpr ⟨image,
        List.mem_append_right _ (List.mem_map.mpr ⟨_, hmem, rfl⟩), hn⟩
  next =>
    rcases shiftIn_cases upperSpans c.toNat with heq | ⟨span, hspan, hpoint, himage⟩
    · exact .inl (by rw [heq, Char.ofNat_toNat])
    · refine .inr ⟨?_, [shiftIn upperSpans c.toNat], rfl, List.cons_ne_nil _ _, ?_⟩
      · exact List.mem_flatten.mpr ⟨_, List.mem_append_left _ (List.mem_map_of_mem hspan), hpoint⟩
      · rw [List.forall_mem_singleton]
        exact List.mem_flatten.mpr ⟨_, List.mem_append_left _ (List.mem_map_of_mem hspan), himage⟩

theorem upperChar_ne_nil (c : Char) : upperChar c ≠ [] := by
  rcases upperChar_cases c with heq | ⟨-, image, heq, hne, -⟩
  · rw [heq]
    exact List.cons_ne_nil c []
  · rw [heq]
    exact mt List.map_eq_nil_iff.mp hne

/-- The characters of an upper case are the character itself, or of the tables. -/
theorem mem_upperChar_cases {c d : Char} (h : d ∈ upperChar c) :
    (d = c ∧ upperChar d = [d]) ∨ (upperChar d = [d] ∧ isBlank d = false ∧ d ≠ '(') := by
  rcases upperChar_cases c with heq | ⟨-, image, heq, -, himage⟩
  · rw [heq] at h
    obtain rfl := List.mem_singleton.mp h
    exact .inl ⟨rfl, heq⟩
  · rw [heq] at h
    obtain ⟨n, hn, rfl⟩ := List.mem_map.mp h
    obtain ⟨points, hpoints, hmem⟩ := List.mem_flatten.mp (himage n hn)
    have hsolid := List.all_eq_true.mp (List.all_eq_true.mp upperImages_isSolid _ hpoints) _ hmem
    simp only [isSolid, Bool.and_eq_true, decide_eq_true_eq, Bool.not_eq_true',
      bne_iff_ne] at hsolid
    obtain ⟨⟨hvalid, hblank⟩, hopen⟩ := hsolid
    have htoNat : (Char.ofNat n).toNat = n := by
      rw [Char.ofNat, dif_pos hvalid]
      rfl
    refine .inr ⟨?_, hblank, ?_⟩
    · rcases upperChar_cases (Char.ofNat n) with hself | ⟨hpoint, -⟩
      · exact hself
      · rw [htoNat] at hpoint
        exact absurd hpoint (not_mem_of_and_eq_zero upperImages_disjoint (himage n hn))
    · intro heq
      rw [← htoNat, heq] at hopen
      exact absurd rfl hopen

/-! ## Texts -/

variable {s : List Char}

/-- A text in upper case is its own upper case. -/
@[simp] theorem upper_upper (s : List Char) : upper (upper s) = upper s := by
  have hself : ∀ d ∈ upper s, upperChar d = [d] := by
    intro d hd
    obtain ⟨c, -, hmem⟩ := List.mem_flatMap.mp hd
    rcases mem_upperChar_cases hmem with ⟨-, heq⟩ | ⟨heq, -⟩ <;> exact heq
  generalize upper s = t at hself
  induction t with
  | nil => rfl
  | cons d t ih =>
      rw [List.forall_mem_cons] at hself
      rw [upper_cons, hself.1, ih hself.2, List.singleton_append]

theorem open_mem_of_mem_upper (h : '(' ∈ upper s) : '(' ∈ s := by
  obtain ⟨c, hc, hmem⟩ := List.mem_flatMap.mp h
  rcases mem_upperChar_cases hmem with ⟨heq, -⟩ | ⟨-, -, hne⟩
  · rwa [heq]
  · exact absurd rfl hne

theorem isBlank_of_mem_upperChar {c d : Char} (h : d ∈ upperChar c) (hc : isBlank c = false) :
    isBlank d = false := by
  rcases mem_upperChar_cases h with ⟨rfl, -⟩ | ⟨-, hblank, -⟩
  · exact hc
  · exact hblank

/-- Upper case neither puts blanks around a text nor takes them away. -/
theorem IsTrimmed.isTrimmed_upper (h : IsTrimmed s) : IsTrimmed (upper s) := by
  constructor
  · intro d hd
    cases s with
    | nil => cases hd
    | cons c s =>
        rw [upper_cons, List.head?_append_of_ne_nil _ (upperChar_ne_nil c)] at hd
        exact isBlank_of_mem_upperChar (List.mem_of_head? hd) (h.1 c rfl)
  · intro d hd
    rcases List.eq_nil_or_concat s with rfl | ⟨front, c, rfl⟩
    · cases hd
    · rw [List.concat_eq_append] at h hd
      rw [upper_append, upper_cons, upper_nil, List.append_nil,
        List.getLast?_append_of_ne_nil _ (upperChar_ne_nil c)] at hd
      exact isBlank_of_mem_upperChar (List.mem_of_getLast? hd) (h.2 c (by simp))

end ColumnFormula.Text
