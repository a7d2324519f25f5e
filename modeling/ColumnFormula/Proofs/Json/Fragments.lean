import ColumnFormula.Proofs.Json.Rests

/-!
# Fragments in front of an object

Whatever stands in front of the text of an object whose first key begins with a letter, the two do
not make up the text of a value. Read up to the object, the fragment may have opened arrays and
objects, and the object is then one of their parts, but nothing behind it closes them. Or it may
have opened a string, which goes on into the object and is closed by the quote in front of its
first key; then the letter stands where no letter may stand.
-/

namespace ColumnFormula.Json

/-! ## What a reader goes over -/

/-- Whether what is read of a text holds no opening brace. -/
def ReadsPlainly (s rest : List Char) : Prop :=
  ∃ read, s = read ++ rest ∧ '\x7b' ∉ read

theorem ReadsPlainly.refl (s : List Char) : ReadsPlainly s s :=
  ⟨[], rfl, List.not_mem_nil⟩

theorem ReadsPlainly.trans {s t rest : List Char} (h : ReadsPlainly s t)
    (hrest : ReadsPlainly t rest) : ReadsPlainly s rest := by
  obtain ⟨first, rfl, hfirst⟩ := h
  obtain ⟨second, rfl, hsecond⟩ := hrest
  exact ⟨first ++ second, (List.append_assoc ..).symm, by simp [hfirst, hsecond]⟩

theorem readsPlainly_takeDigits (s : List Char) : ReadsPlainly s (Decimal.takeDigits s).2 := by
  obtain ⟨happend, hdigits⟩ := Decimal.takeDigits_spec s
  exact ⟨_, happend.symm, fun hmem => absurd (hdigits _ hmem) (by decide)⟩

theorem readsPlainly_takeSign (s : List Char) : ReadsPlainly s (Decimal.takeSign s).2 := by
  unfold Decimal.takeSign
  split
  · exact ⟨['-'], rfl, by decide⟩
  · exact ⟨['+'], rfl, by decide⟩
  · exact .refl s

theorem readsPlainly_readFraction (s : List Char) :
    ReadsPlainly s ((readFraction s).elim s (·.2)) := by
  unfold readFraction
  split
  next t =>
    dsimp only
    split
    · exact .refl _
    · exact ReadsPlainly.trans ⟨['.'], rfl, by decide⟩ (readsPlainly_takeDigits t)
  next => exact .refl s

theorem readsPlainly_readExponent (s : List Char) :
    ReadsPlainly s ((readExponent s).elim s (·.2)) := by
  unfold readExponent
  split
  next c t =>
    split
    next hletter =>
      dsimp only
      split
      · exact .refl _
      · refine .trans (t := t) ?_ (.trans (readsPlainly_takeSign t) (readsPlainly_takeDigits _))
        rcases hletter with rfl | rfl
        · exact ⟨['e'], rfl, by decide⟩
        · exact ⟨['E'], rfl, by decide⟩
    next => exact .refl _
  next => exact .refl _

theorem readsPlainly_readNumber {negative : Bool} {s rest : List Char} {value : Json}
    (h : readNumber negative s = .ok (value, rest)) : ReadsPlainly s rest := by
  have hwhole := readsPlainly_takeDigits s
  have hfraction := readsPlainly_readFraction (Decimal.takeDigits s).2
  have hexponent := readsPlainly_readExponent
    ((readFraction (Decimal.takeDigits s).2).elim (Decimal.takeDigits s).2 (·.2))
  unfold readNumber at h
  dsimp only at h
  split at h
  next => cases h
  next =>
    split at h
    next =>
      split at h
      next => cases h
      next =>
        obtain ⟨-, rfl⟩ := Prod.mk.inj (Except.ok.inj h)
        exact hwhole
    next =>
      obtain ⟨-, rfl⟩ := Prod.mk.inj (Except.ok.inj h)
      exact hwhole.trans (hfraction.trans hexponent)

theorem readsPlainly_readScalar {s rest : List Char} {value : Json}
    (h : readScalar s = .ok (value, rest)) : ReadsPlainly s rest := by
  unfold readScalar at h
  split at h
  next =>
    obtain ⟨-, rfl⟩ := Prod.mk.inj (Except.ok.inj h)
    exact ⟨['n', 'u', 'l', 'l'], rfl, by decide⟩
  next =>
    obtain ⟨-, rfl⟩ := Prod.mk.inj (Except.ok.inj h)
    exact ⟨['t', 'r', 'u', 'e'], rfl, by decide⟩
  next =>
    obtain ⟨-, rfl⟩ := Prod.mk.inj (Except.ok.inj h)
    exact ⟨['f', 'a', 'l', 's', 'e'], rfl, by decide⟩
  next =>
    obtain ⟨-, rfl⟩ := Prod.mk.inj (Except.ok.inj h)
    exact ⟨['N', 'a', 'N'], rfl, by decide⟩
  next =>
    obtain ⟨-, rfl⟩ := Prod.mk.inj (Except.ok.inj h)
    exact ⟨['I', 'n', 'f', 'i', 'n', 'i', 't', 'y'], rfl, by decide⟩
  next =>
    obtain ⟨-, rfl⟩ := Prod.mk.inj (Except.ok.inj h)
    exact ⟨['-', 'I', 'n', 'f', 'i', 'n', 'i', 't', 'y'], rfl, by decide⟩
  next => exact .trans ⟨['-'], rfl, by decide⟩ (readsPlainly_readNumber h)
  next => exact readsPlainly_readNumber h

theorem ne_brace_of_unit? {a b c d : Char} {n : Nat} (h : unit? a b c d = some n) :
    '\x7b' ∉ [a, b, c, d] := by
  have hbrace : hexValue? '\x7b' = none := by decide
  simp only [unit?, bind, Option.bind_eq_some_iff] at h
  obtain ⟨p, ha, q, hb, r, hc, s, hd, -⟩ := h
  simp only [List.mem_cons, List.not_mem_nil, or_false]
  rintro (rfl | rfl | rfl | rfl) <;> simp [hbrace] at *

theorem readsPlainly_readUnits {a b c d x : Char} {s rest : List Char}
    (h : readUnits a b c d s = some (x, rest)) :
    ReadsPlainly ('u' :: a :: b :: c :: d :: s) rest := by
  simp only [readUnits, bind, Option.bind_eq_some_iff] at h
  obtain ⟨first, hfirst, h⟩ := h
  have hunit : ReadsPlainly ('u' :: a :: b :: c :: d :: s) s :=
    ⟨['u', a, b, c, d], rfl, by simpa using ne_brace_of_unit? hfirst⟩
  refine hunit.trans ?_
  split at h
  next e f g i t =>
    split at h
    next =>
      obtain ⟨second, hsecond, h⟩ := Option.bind_eq_some_iff.mp h
      split at h
      next =>
        obtain ⟨-, rfl⟩ := Prod.mk.inj (Option.some.inj h)
        exact ⟨['\\', 'u', e, f, g, i], rfl, by simpa using ne_brace_of_unit? hsecond⟩
      next =>
        obtain ⟨-, rfl⟩ := Prod.mk.inj (Option.some.inj h)
        exact .refl _
    next hsingle =>
      simp only [hsingle, Option.bind_some, Bool.false_and, Bool.false_eq_true, if_false] at h
      obtain ⟨-, rfl⟩ := Prod.mk.inj (Option.some.inj h)
      exact .refl _
  next =>
    obtain ⟨-, rfl⟩ := Prod.mk.inj (Option.some.inj h)
    exact .refl _

/-- Behind its first character, what spells a character of a string holds no opening brace. -/
theorem readsPlainly_readChar {c d : Char} {s rest : List Char}
    (h : readChar (d :: s) = some (c, rest)) : ReadsPlainly s rest := by
  rw [readChar.eq_def] at h
  split at h
  next heq =>
    obtain ⟨rfl, rfl⟩ := List.cons.inj heq
    exact readsPlainly_readUnits h
  next e t _ heq =>
    obtain ⟨rfl, rfl⟩ := List.cons.inj heq
    obtain ⟨x, hescape, hrest⟩ := Option.map_eq_some_iff.mp h
    obtain ⟨-, rfl⟩ := Prod.mk.inj hrest
    refine ⟨[e], rfl, ?_⟩
    rw [List.mem_singleton]
    rintro rfl
    exact absurd hescape (by simp [namedEscape?])
  next => cases h
  next heq =>
    obtain ⟨rfl, rfl⟩ := List.cons.inj heq
    split at h
    next => cases h
    next =>
      obtain ⟨-, rfl⟩ := Prod.mk.inj (Option.some.inj h)
      exact .refl _
  next heq => cases heq

/-! ## The object at the end -/

/-- Whether a text is read as an object whose first key begins with a letter, and in no other way
than as a whole. -/
structure IsKeyedObject (text : List Char) : Prop where
  head : ∃ c rest, text = '\x7b' :: '"' :: c :: rest ∧ c.isAlpha = true
  whole : ∀ rest, Reads .value text rest → rest = []

/-- What a reading of a text leaves of an object at its end: all of it, what stands behind the
opening quote of the first key, or nothing, if there is nothing in front of the object. -/
def Part.Leaves (text : List Char) : Part → List Char → List Char → Prop
  | .string, _, rest => text <:+ rest ∨ rest = text.drop 2
  | .value, s, rest => text <:+ rest ∨ rest = text.drop 2 ∨ s = text ∧ rest = []
  | .items, _, rest => text <:+ rest
  | .fields, _, rest => text <:+ rest

namespace IsKeyedObject

variable {text s rest u : List Char} {c : Char}

theorem suffix_of_cons (htext : IsKeyedObject text) (hc : c ≠ '\x7b') (h : text <:+ c :: s) :
    text <:+ s := by
  obtain ⟨d, rest, rfl, -⟩ := htext.head
  rcases List.suffix_cons_iff.mp h with heq | hs
  · exact absurd (List.cons.inj heq).1.symm hc
  · exact hs

theorem suffix_skipSpace (htext : IsKeyedObject text) (h : text <:+ s) :
    text <:+ skipSpace s := by
  obtain ⟨d, rest, rfl, -⟩ := htext.head
  obtain ⟨front, rfl⟩ := h
  rw [skipSpace, List.dropWhile_append]
  split
  · exact List.suffix_refl _
  · exact List.suffix_append _ _

theorem suffix_of_readsPlainly (htext : IsKeyedObject text) (h : ReadsPlainly s rest)
    (hs : text <:+ s) : text <:+ rest := by
  obtain ⟨d, more, rfl, -⟩ := htext.head
  obtain ⟨read, rfl, hread⟩ := h
  rcases List.suffix_or_suffix_of_suffix hs (List.suffix_append read rest) with hsuffix | hsuffix
  · exact hsuffix
  · -- Otherwise the brace of the object is among what was read.
    obtain ⟨front, hfront⟩ := hs
    obtain ⟨before, hbefore⟩ := hsuffix
    cases before with
    | nil => exact hbefore ▸ List.suffix_refl _
    | cons brace before =>
        obtain ⟨rfl, -⟩ := List.cons.inj hbefore
        rw [← hbefore, ← List.append_assoc] at hfront
        rw [← List.append_cancel_right hfront] at hread
        exact absurd (List.mem_append_right front List.mem_cons_self) hread

/-- The letter behind the first quote is not skipped. -/
theorem skipSpace_drop (htext : IsKeyedObject text) :
    ∃ d more, skipSpace (text.drop 2) = d :: more ∧ d.isAlpha = true := by
  obtain ⟨d, more, rfl, hd⟩ := htext.head
  refine ⟨d, more, skipSpace_cons ?_ more, hd⟩
  rw [Bool.eq_false_iff, Ne, isSpace]
  simp only [Bool.or_eq_true, beq_iff_eq]
  rintro (((rfl | rfl) | rfl) | rfl) <;> exact absurd hd (by decide)

/-- A mark behind what is left stands in front of the object. -/
theorem suffix_of_mark (htext : IsKeyedObject text)
    (hrest : text <:+ rest ∨ rest = text.drop 2 ∨ rest = []) (hmark : c ∈ [',', ':', ']', '\x7d'])
    (hskip : skipSpace rest = c :: u) : text <:+ u := by
  have hbrace : c ≠ '\x7b' := by
    rintro rfl
    exact absurd hmark (by decide)
  rcases hrest with hrest | rfl | rfl
  · exact htext.suffix_of_cons hbrace (hskip ▸ htext.suffix_skipSpace hrest)
  · obtain ⟨d, more, hdrop, hd⟩ := htext.skipSpace_drop
    obtain ⟨rfl, -⟩ := List.cons.inj (hdrop.symm.trans hskip)
    simp only [List.mem_cons, List.not_mem_nil, or_false] at hmark
    rcases hmark with rfl | rfl | rfl | rfl <;> exact absurd hd (by decide)
  · cases hskip

end IsKeyedObject

/-- No reading of a text gets into an object at its end, but for the quote of its first key. -/
theorem Reads.leaves {text : List Char} (htext : IsKeyedObject text) {part : Part}
    {s rest : List Char} (h : Reads part s rest) (hs : text <:+ s) : part.Leaves text s rest := by
  induction h with
  | quote rest => exact .inl (htext.suffix_of_cons (by decide) hs)
  | @char s t rest c hquote hchar hstring ih =>
      cases s with
      | nil => cases hchar
      | cons d s =>
          rcases List.suffix_cons_iff.mp hs with heq | hs
          · -- Inside of a string, the quote behind the brace is the closing one.
            obtain ⟨letter, more, rfl, -⟩ := htext.head
            obtain ⟨rfl, rfl⟩ := List.cons.inj heq
            obtain ⟨-, rfl⟩ := Prod.mk.inj (Option.some.inj hchar)
            exact .inr (hstring.unique (.quote _))
          · exact ih (htext.suffix_of_readsPlainly (readsPlainly_readChar hchar) hs)
  | scalar hhead hscalar =>
      exact .inl (htext.suffix_of_readsPlainly (readsPlainly_readScalar hscalar) hs)
  | text hstring ih =>
      exact (ih (htext.suffix_of_cons (by decide) hs)).imp_right .inl
  | emptyArr hclose =>
      exact .inl (htext.suffix_of_mark (.inl (htext.suffix_of_cons (by decide) hs)) (by simp) hclose)
  | arr hopen hitems ih =>
      exact .inl (ih (htext.suffix_skipSpace (htext.suffix_of_cons (by decide) hs)))
  | emptyObj hclose =>
      rcases List.suffix_cons_iff.mp hs with rfl | hs
      · exact .inr (.inr ⟨rfl, htext.whole _ (.emptyObj hclose)⟩)
      · exact .inl (htext.suffix_of_mark (.inl hs) (by simp) hclose)
  | obj hopen hfields ih =>
      rcases List.suffix_cons_iff.mp hs with rfl | hs
      · exact .inr (.inr ⟨rfl, htext.whole _ (.obj hopen hfields)⟩)
      · exact .inl (ih (htext.suffix_skipSpace hs))
  | item hvalue hclose ih =>
      exact htext.suffix_of_mark ((ih hs).imp_right (Or.imp_right And.right)) (by simp) hclose
  | items hvalue hcomma hitems ihValue ihItems =>
      refine ihItems (htext.suffix_skipSpace ?_)
      exact htext.suffix_of_mark ((ihValue hs).imp_right (Or.imp_right And.right)) (by simp) hcomma
  | field hkey hcolon hvalue hclose ihKey ihValue =>
      have hkeyRest := htext.suffix_of_mark
        ((ihKey (htext.suffix_of_cons (by decide) hs)).imp_right .inl) (by simp) hcolon
      have hvalueRest := ihValue (htext.suffix_skipSpace hkeyRest)
      exact htext.suffix_of_mark (hvalueRest.imp_right (Or.imp_right And.right)) (by simp) hclose
  | fields hkey hcolon hvalue hcomma hfields ihKey ihValue ihFields =>
      have hkeyRest := htext.suffix_of_mark
        ((ihKey (htext.suffix_of_cons (by decide) hs)).imp_right .inl) (by simp) hcolon
      have hvalueRest := ihValue (htext.suffix_skipSpace hkeyRest)
      refine ihFields (htext.suffix_skipSpace ?_)
      exact htext.suffix_of_mark (hvalueRest.imp_right (Or.imp_right And.right)) (by simp) hcomma

/-- A fragment and an object behind it are not read as a value. -/
theorem ofChars_append_ne_ok {text front : List Char} {depth : Nat} (htext : IsKeyedObject text)
    (hne : front ≠ []) (hhead : ∀ c ∈ front.head?, isSpace c = false) (value : Json) :
    ofChars (front ++ text) depth ≠ .ok value := by
  intro h
  have hskip : skipSpace (front ++ text) = front ++ text := by
    cases front with
    | nil => exact absurd rfl hne
    | cons c front => exact skipSpace_cons (hhead c rfl) _
  rw [ofChars, hskip] at h
  obtain ⟨⟨read, rest⟩, hread, hrest⟩ := exists_of_bind_eq_ok h
  dsimp only at hrest
  split at hrest
  next hempty =>
    have hreads : Reads .value (front ++ text) rest := (reads_of_readers _).1 hread
    have hblank : skipSpace rest = [] := List.isEmpty_iff.mp hempty
    rcases hreads.leaves htext (List.suffix_append front text) with hsuffix | rfl | ⟨hfront, -⟩
    · obtain ⟨d, more, rfl, -⟩ := htext.head
      have hnone := htext.suffix_skipSpace hsuffix
      rw [hblank] at hnone
      cases List.suffix_nil.mp hnone
    · obtain ⟨d, more, hdrop, -⟩ := htext.skipSpace_drop
      rw [hdrop] at hblank
      cases hblank
    · exact hne (List.append_left_eq_self.mp hfront)
  next => cases hrest

theorem escapeChar_of_isAlpha {c : Char} (h : c.isAlpha = true) : escapeChar c = [c] := by
  have hne : ∀ d : Char, d.isAlpha = false → c ≠ d := by
    rintro d hd rfl
    rw [h] at hd
    cases hd
  have halpha : c.isAlpha = (decide (c.val ≥ 'A'.val ∧ c.val ≤ 'Z'.val) ||
      decide (c.val ≥ 'a'.val) && decide (c.val ≤ 'z'.val)) := rfl
  have hplain : 0x20 ≤ c.toNat ∧ c.toNat ≤ 0x7E := by
    simp only [halpha, Bool.or_eq_true, Bool.and_eq_true, decide_eq_true_eq] at h
    rcases h with ⟨hlow, hhigh⟩ | ⟨hlow, hhigh⟩
    · exact ⟨Nat.le_trans (by decide) hlow, Nat.le_trans hhigh (by decide)⟩
    · exact ⟨Nat.le_trans (by decide) hlow, Nat.le_trans hhigh (by decide)⟩
  rw [escapeChar, if_neg (hne _ (by decide)), if_neg (hne _ (by decide)),
    if_neg (hne _ (by decide)), if_neg (hne _ (by decide)), if_neg (hne _ (by decide)),
    if_neg (hne _ (by decide)), if_neg (hne _ (by decide)), if_pos hplain]

/-- The text of an object is read as a whole only, as it is read back. -/
theorem isKeyedObject_write {key : String} {value : Json} {fields : List (String × Json)}
    (hkey : ∃ c ∈ key.toList.head?, c.isAlpha = true)
    (hkeys : (obj ((key, value) :: fields)).HasUniqueKeys)
    (hint : (obj ((key, value) :: fields)).hasHugeInteger = false) :
    IsKeyedObject (write (.obj ((key, value) :: fields))) where
  head := by
    obtain ⟨c, hc, halpha⟩ := hkey
    obtain ⟨cs, hcs⟩ := List.head?_eq_some_iff.mp hc
    rw [write, writeString, hcs, List.flatMap_cons, escapeChar_of_isAlpha halpha]
    exact ⟨c, _, rfl, halpha⟩
  whole rest h := by
    have hread : readValue _ _ (write (.obj ((key, value) :: fields)) ++ []) =
        .ok (.obj ((key, value) :: fields), []) :=
      readValue_write _ hkeys hint (Nat.lt_succ_self _) (Nat.le_refl _) (by intro c hc; cases hc)
    rw [List.append_nil] at hread
    exact h.unique ((reads_of_readers _).1 hread)

end ColumnFormula.Json
