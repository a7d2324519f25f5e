import ColumnFormula.Proofs.Json.RoundTrip
import ColumnFormula.Proofs.Text.Lines
import ColumnFormula.Proofs.Text.Trim

/-!
# The characters of written values

A value is written in plain characters only, whatever stands in its strings, so its text is
one line. An object is written between braces, so nothing of it is lost when blanks are
trimmed.
-/

namespace ColumnFormula.Json

open Text

/-! ## Strings -/

theorem isPlain_digitChar : ∀ d < 16, IsPlain (Nat.digitChar d) := by
  decide

theorem isPlain_escapeUnit (n : Nat) : ∀ c ∈ escapeUnit n, IsPlain c := by
  have hdigit : ∀ m, IsPlain (Nat.digitChar (m % 16)) := fun m =>
    isPlain_digitChar _ (Nat.mod_lt _ (by omega))
  rw [escapeUnit, hexDigits_four]
  simp only [List.forall_mem_cons, hdigit, true_and]
  exact ⟨by decide, by decide, by simp⟩

theorem isPlain_escapeChar (c : Char) : ∀ d ∈ escapeChar c, IsPlain d := by
  unfold escapeChar
  split
  · exact isPlain_of_all (by decide)
  split
  · exact isPlain_of_all (by decide)
  split
  · exact isPlain_of_all (by decide)
  split
  · exact isPlain_of_all (by decide)
  split
  · exact isPlain_of_all (by decide)
  split
  · exact isPlain_of_all (by decide)
  split
  · exact isPlain_of_all (by decide)
  split
  next hplain =>
    rw [List.forall_mem_singleton]
    exact hplain
  split
  next => exact isPlain_escapeUnit _
  next =>
    rw [List.forall_mem_append]
    exact ⟨isPlain_escapeUnit _, isPlain_escapeUnit _⟩

theorem isPlain_writeString (s : String) : ∀ c ∈ writeString s, IsPlain c := by
  rw [writeString, List.cons_append, List.forall_mem_cons, List.forall_mem_append,
    List.forall_mem_singleton]
  refine ⟨by decide, ?_, by decide⟩
  intro c hc
  obtain ⟨d, -, hd⟩ := List.mem_flatMap.mp hc
  exact isPlain_escapeChar d c hd

/-! ## Numbers -/

theorem isPlain_of_isDigit {c : Char} (h : c.isDigit = true) : IsPlain c := by
  simp only [Char.isDigit, Bool.and_eq_true, decide_eq_true_eq] at h
  have hlow : 48 ≤ c.toNat := h.1
  have hhigh : c.toNat ≤ 57 := h.2
  unfold IsPlain
  omega

theorem isPlain_digits {ds : List Char} (h : ∀ c ∈ ds, c.isDigit = true) :
    ∀ c ∈ ds, IsPlain c :=
  fun c hc => isPlain_of_isDigit (h c hc)

theorem isPlain_chars (n : Numeral) : ∀ c ∈ n.chars, IsPlain c := by
  rw [Numeral.chars, List.forall_mem_append, List.forall_mem_append]
  refine ⟨⟨isPlain_digits n.whole_digits, ?_⟩, ?_⟩
  · unfold Numeral.fractionChars
    split
    next => simp
    next =>
      rw [List.forall_mem_cons]
      exact ⟨by decide, isPlain_digits n.fraction_digits⟩
  · unfold Numeral.exponentChars
    split
    next exponent _ =>
      obtain ⟨ds, htext, -, hdigits, -⟩ := Binary64.exponentText_eq exponent
      rw [htext, List.forall_mem_cons, List.forall_mem_cons]
      refine ⟨by decide, ?_, isPlain_digits hdigits⟩
      split <;> decide
    next => simp

theorem isPlain_sign (negative : Prop) [Decidable negative] :
    ∀ c ∈ if negative then ['-'] else [], IsPlain c := by
  split <;> exact isPlain_of_all (by decide)

theorem isPlain_writeInt (n : Int) : ∀ c ∈ writeInt n, IsPlain c := by
  rw [writeInt, List.forall_mem_append]
  exact ⟨isPlain_sign _, isPlain_digits fun c => Decimal.isDigit_of_mem_toDigits⟩

theorem isPlain_writeFloat (x : Binary64) : ∀ c ∈ writeFloat x, IsPlain c := by
  cases x with
  | nan => exact isPlain_of_all (by decide)
  | infinite negative => cases negative <;> exact isPlain_of_all (by decide)
  | finite negative units h =>
      obtain ⟨n, hchars, -⟩ := Numeral.exists_chars_magnitudeText h
      change ∀ c ∈ (if negative = true then ['-'] else []) ++ Binary64.magnitudeText units, IsPlain c
      rw [List.forall_mem_append, ← hchars]
      exact ⟨isPlain_sign _, isPlain_chars n⟩

/-! ## Values -/

mutual

/-- No text that is written holds anything but plain characters. -/
theorem isPlain_write (value : Json) : ∀ c ∈ write value, IsPlain c := by
  match value with
  | .null => exact isPlain_of_all (by decide)
  | .bool true => exact isPlain_of_all (by decide)
  | .bool false => exact isPlain_of_all (by decide)
  | .int n => exact isPlain_writeInt n
  | .float x => exact isPlain_writeFloat x
  | .str s => exact isPlain_writeString s
  | .arr [] => exact isPlain_of_all (by decide)
  | .arr (item :: items) =>
      rw [write, List.cons_append, List.forall_mem_cons, List.forall_mem_append]
      exact ⟨by decide, isPlain_write item, isPlain_writeItems items⟩
  | .obj [] => exact isPlain_of_all (by decide)
  | .obj ((key, value) :: fields) =>
      simp only [write, List.cons_append, List.forall_mem_cons, List.forall_mem_append]
      exact ⟨by decide, ⟨isPlain_writeString key, by decide, by decide, isPlain_write value⟩,
        isPlain_writeFields fields⟩
termination_by structural value

theorem isPlain_writeItems (items : List Json) : ∀ c ∈ writeItems items, IsPlain c := by
  match items with
  | [] => exact isPlain_of_all (by decide)
  | item :: items =>
      simp only [writeItems, List.cons_append, List.forall_mem_cons, List.forall_mem_append]
      exact ⟨by decide, by decide, isPlain_write item, isPlain_writeItems items⟩
termination_by structural items

theorem isPlain_writeFields (fields : List (String × Json)) :
    ∀ c ∈ writeFields fields, IsPlain c := by
  match fields with
  | [] => exact isPlain_of_all (by decide)
  | (key, value) :: fields =>
      simp only [writeFields, List.cons_append, List.forall_mem_cons, List.forall_mem_append]
      exact ⟨by decide, by decide, ⟨isPlain_writeString key, by decide, by decide,
        isPlain_write value⟩, isPlain_writeFields fields⟩
termination_by structural fields

end

/-! ## The ends of an object -/

theorem getLast?_writeFields (fields : List (String × Json)) :
    (writeFields fields).getLast? = some '\x7d' := by
  induction fields with
  | nil => rfl
  | cons field fields ih =>
      rw [writeFields, List.getLast?_append, ih]
      rfl

/-- The text of an object begins and ends with a brace. -/
theorem write_obj_ends (fields : List (String × Json)) :
    (write (.obj fields)).head? = some '\x7b' ∧ (write (.obj fields)).getLast? = some '\x7d' := by
  cases fields with
  | nil => exact ⟨rfl, rfl⟩
  | cons field fields =>
      refine ⟨rfl, ?_⟩
      rw [write, List.getLast?_append, getLast?_writeFields]
      rfl

/-- Trimming the text of an object leaves it as it is. -/
theorem strip_write_obj (fields : List (String × Json)) :
    strip (write (.obj fields)) = write (.obj fields) := by
  obtain ⟨hhead, hlast⟩ := write_obj_ends fields
  apply trimBy_eq_self
  · intro c hc
    obtain rfl : '\x7b' = c := Option.some.inj (hhead.symm.trans hc)
    decide
  · intro c hc
    obtain rfl : '\x7d' = c := Option.some.inj (hlast.symm.trans hc)
    decide

end ColumnFormula.Json
