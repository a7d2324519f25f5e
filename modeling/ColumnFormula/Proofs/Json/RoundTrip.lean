import ColumnFormula.Proofs.Json.Numbers
import ColumnFormula.Proofs.Json.Strings

/-!
# Values read back

A value is read back from the line that it is written on: whatever follows, if it is not more
of a number, and if the value has no key twice, no integer of too many digits and no more
levels than the reader goes down. The fuel that the reader needs is twice the length of what
it reads.
-/

namespace ColumnFormula.Json

mutual

/-- Whether no object in a value has a key twice. -/
def HasUniqueKeys : Json → Prop
  | .arr items => ItemsHaveUniqueKeys items
  | .obj fields => (fields.map Prod.fst).Nodup ∧ FieldsHaveUniqueKeys fields
  | _ => True
termination_by structural value => value

/-- `HasUniqueKeys` for each item. -/
def ItemsHaveUniqueKeys : List Json → Prop
  | [] => True
  | item :: items => HasUniqueKeys item ∧ ItemsHaveUniqueKeys items
termination_by structural items => items

/-- `HasUniqueKeys` for the value of each field. -/
def FieldsHaveUniqueKeys : List (String × Json) → Prop
  | [] => True
  | (_, value) :: fields => HasUniqueKeys value ∧ FieldsHaveUniqueKeys fields
termination_by structural fields => fields

end

/-! ## Fields with unique keys -/

theorem setField_of_not_mem {key : String} (value : Json) {fields : List (String × Json)}
    (h : key ∉ fields.map Prod.fst) : setField key value fields = fields ++ [(key, value)] := by
  induction fields with
  | nil => rfl
  | cons field fields ih =>
      simp only [List.map_cons, List.mem_cons, not_or] at h
      rw [setField, if_neg (Ne.symm h.1), ih h.2, List.cons_append]

theorem distinct_eq_self {fields : List (String × Json)} (h : (fields.map Prod.fst).Nodup) :
    distinct fields = fields := by
  -- The fields kept so far have none of the keys to come.
  have hfold : ∀ kept : List (String × Json), ((kept ++ fields).map Prod.fst).Nodup →
      fields.foldl (fun kept field => setField field.1 field.2 kept) kept = kept ++ fields := by
    clear h
    induction fields with
    | nil => simp
    | cons field fields ih =>
        intro kept hkept
        have hnew : field.1 ∉ kept.map Prod.fst := by
          rw [List.map_append, List.nodup_append] at hkept
          intro hmem
          exact hkept.2.2 _ hmem field.1 (by simp) rfl
        rw [List.foldl_cons, setField_of_not_mem _ hnew, ih, List.append_assoc]
        · rfl
        · rw [List.append_assoc]
          exact hkept
  exact hfold [] h

/-! ## The beginning of a value -/

theorem skipSpace_cons {c : Char} (h : isSpace c = false) (s : List Char) :
    skipSpace (c :: s) = c :: s := by
  rw [skipSpace, List.dropWhile_cons_of_neg (by simp [h])]

theorem skipSpace_space_cons {c : Char} (h : isSpace c = false) (s : List Char) :
    skipSpace (' ' :: c :: s) = c :: s := by
  rw [skipSpace, List.dropWhile_cons_of_pos (by rfl)]
  exact skipSpace_cons h s

/-- Whether a character can begin a value without parts other than a string. -/
def BeginsScalar (c : Char) : Prop :=
  c.isDigit = true ∨ c ∈ ['-', 'n', 't', 'f', 'N', 'I']

theorem BeginsScalar.ne {c other : Char} (h : BeginsScalar c)
    (hother : other.isDigit = false ∧ other ∉ ['-', 'n', 't', 'f', 'N', 'I']) : c ≠ other := by
  rintro rfl
  rcases h with hdigit | hletter
  · rw [hother.1] at hdigit
    cases hdigit
  · exact hother.2 hletter

theorem BeginsScalar.isSpace_eq_false {c : Char} (h : BeginsScalar c) : isSpace c = false := by
  simp only [isSpace, Bool.or_eq_false_iff, beq_eq_false_iff_ne]
  exact ⟨⟨⟨h.ne (by decide), h.ne (by decide)⟩, h.ne (by decide)⟩, h.ne (by decide)⟩

theorem beginsScalar_digits {ds : List Char} (hne : ds ≠ [])
    (hdigits : ∀ c ∈ ds, c.isDigit = true) (negative : Prop) [Decidable negative]
    (rest : List Char) :
    ∃ c s, (if negative then ['-'] else []) ++ (ds ++ rest) = c :: s ∧ BeginsScalar c := by
  cases ds with
  | nil => exact absurd rfl hne
  | cons d ds =>
      by_cases hsign : negative
      · exact ⟨'-', d :: ds ++ rest, by simp [hsign], .inr (by simp)⟩
      · exact ⟨d, ds ++ rest, by simp [hsign], .inl (hdigits d (by simp))⟩

theorem writeInt_head (n : Int) : ∃ c s, writeInt n = c :: s ∧ BeginsScalar c := by
  rw [writeInt, ← List.append_nil (Nat.toDigits 10 n.natAbs)]
  exact beginsScalar_digits Nat.toDigits_ne_nil (fun c => Decimal.isDigit_of_mem_toDigits) _ _

theorem writeFloat_head (x : Binary64) : ∃ c s, writeFloat x = c :: s ∧ BeginsScalar c := by
  cases x with
  | nan => exact ⟨'N', ['a', 'N'], rfl, .inr (by simp)⟩
  | infinite negative =>
      cases negative
      · exact ⟨'I', _, rfl, .inr (by simp)⟩
      · exact ⟨'-', _, rfl, .inr (by simp)⟩
  | finite negative units h =>
      obtain ⟨n, hchars, -⟩ := Numeral.exists_chars_magnitudeText h
      change ∃ c s, (if negative = true then ['-'] else []) ++ Binary64.magnitudeText units =
        c :: s ∧ BeginsScalar c
      rw [← hchars, Numeral.chars, List.append_assoc]
      exact beginsScalar_digits n.whole_ne_nil n.whole_digits _ _

/-- The text of a value begins neither with a blank nor with a closing bracket. -/
theorem write_head (value : Json) : ∃ c s, write value = c :: s ∧ isSpace c = false ∧ c ≠ ']' := by
  cases value with
  | null => exact ⟨'n', _, rfl, rfl, by decide⟩
  | bool b =>
      cases b
      · exact ⟨'f', _, rfl, rfl, by decide⟩
      · exact ⟨'t', _, rfl, rfl, by decide⟩
  | int n =>
      obtain ⟨c, s, hwrite, hc⟩ := writeInt_head n
      exact ⟨c, s, hwrite, hc.isSpace_eq_false, hc.ne (by decide)⟩
  | float x =>
      obtain ⟨c, s, hwrite, hc⟩ := writeFloat_head x
      exact ⟨c, s, hwrite, hc.isSpace_eq_false, hc.ne (by decide)⟩
  | str s => exact ⟨'"', _, rfl, rfl, by decide⟩
  | arr items =>
      cases items with
      | nil => exact ⟨'[', _, rfl, rfl, by decide⟩
      | cons item items => exact ⟨'[', _, rfl, rfl, by decide⟩
  | obj fields =>
      cases fields with
      | nil => exact ⟨'{', _, rfl, rfl, by decide⟩
      | cons field fields => exact ⟨'{', _, rfl, rfl, by decide⟩

/-- A value that begins like a number or a name is read as one. -/
theorem readValue_of_scalar {fuel depth : Nat} {text rest : List Char}
    {result : Except ReadError (Json × List Char)}
    (hhead : ∃ c s, text = c :: s ∧ BeginsScalar c) (hfuel : 2 * text.length ≤ fuel)
    (hscalar : readScalar (text ++ rest) = result) :
    readValue fuel depth (text ++ rest) = result := by
  obtain ⟨c, s, rfl, hc⟩ := hhead
  obtain ⟨fuel, rfl⟩ : ∃ k, fuel = k + 1 := by
    rw [List.length_cons] at hfuel
    exact ⟨fuel - 1, by omega⟩
  rw [readValue.eq_def]
  simp only [List.cons_append] at hscalar ⊢
  split
  next heq => exact absurd (List.cons.inj heq).1 (hc.ne (by decide))
  next heq => exact absurd (List.cons.inj heq).1 (hc.ne (by decide))
  next heq => exact absurd (List.cons.inj heq).1 (hc.ne (by decide))
  next heq => exact absurd (List.cons.inj heq).1 (hc.ne (by decide))
  next heq => exact absurd (List.cons.inj heq).1 (hc.ne (by decide))
  next => exact hscalar

/-! ## The round trip -/

theorem length_le_writeString (s : String) : s.toList.length + 2 ≤ (writeString s).length := by
  have hescaped : ∀ cs : List Char, cs.length ≤ (cs.flatMap escapeChar).length := by
    intro cs
    induction cs with
    | nil => exact Nat.le_refl _
    | cons c cs ih =>
        obtain ⟨first, tail, hescape, -⟩ := escapeChar_head c
        rw [List.flatMap_cons, List.length_append, hescape]
        simp only [List.length_cons]
        omega
  have hchars := hescaped s.toList
  simp only [writeString, List.length_cons, List.length_append, List.length_nil]
  omega

theorem readKey_writeString {fuel : Nat} {key : String} (hfuel : (writeString key).length ≤ fuel)
    {c : Char} (hspace : isSpace c = false) (s : List Char) :
    readKey fuel (writeString key ++ ':' :: ' ' :: c :: s) = .ok (key, c :: s) := by
  have hlength := length_le_writeString key
  have htext : writeString key ++ ':' :: ' ' :: c :: s =
      '"' :: (key.toList.flatMap escapeChar ++ '"' :: ':' :: ' ' :: c :: s) := by
    simp [writeString]
  rw [htext, readKey, readString_flatMap_escapeChar (by omega)]
  simp only [bind, Except.bind]
  rw [skipSpace_cons (by rfl)]
  simp only [String.ofList_toList, skipSpace_space_cons hspace]

theorem readValue_bracket (fuel depth : Nat) {c : Char} (hspace : isSpace c = false)
    (hc : c ≠ ']') (s : List Char) :
    readValue (fuel + 1) (depth + 1) ('[' :: c :: s) =
      (readItems fuel depth (c :: s)).map fun (items, rest) => (.arr items, rest) := by
  rw [readValue.eq_def]
  simp only [skipSpace_cons hspace]
  split
  next heq => exact absurd (List.cons.inj heq).1 hc
  next => rfl

theorem readValue_brace (fuel depth : Nat) {c : Char} (hspace : isSpace c = false)
    (hc : c ≠ '\x7d') (s : List Char) :
    readValue (fuel + 1) (depth + 1) ('\x7b' :: c :: s) =
      (readFields fuel depth (c :: s)).map fun (fields, rest) => (.obj (distinct fields), rest) := by
  rw [readValue.eq_def]
  simp only [skipSpace_cons hspace]
  split
  next heq => exact absurd (List.cons.inj heq).1 hc
  next => rfl

theorem endsNumber_cons {c : Char} (hc : c.isDigit = false ∧ c ≠ '.' ∧ c ≠ 'e' ∧ c ≠ 'E')
    (s : List Char) : EndsNumber (c :: s) := by
  intro d hd
  obtain rfl : c = d := by simpa using hd
  exact hc

theorem endsNumber_writeItems (items : List Json) (rest : List Char) :
    EndsNumber (writeItems items ++ rest) := by
  cases items with
  | nil => exact endsNumber_cons (by decide) _
  | cons item items => exact endsNumber_cons (by decide) _

theorem endsNumber_writeFields (fields : List (String × Json)) (rest : List Char) :
    EndsNumber (writeFields fields ++ rest) := by
  cases fields with
  | nil => exact endsNumber_cons (by decide) _
  | cons field fields => exact endsNumber_cons (by decide) _

mutual

theorem readValue_write (value : Json) {fuel depth : Nat} {rest : List Char}
    (hkeys : value.HasUniqueKeys) (hint : value.hasHugeInteger = false)
    (hdepth : value.height < depth) (hfuel : 2 * (write value).length ≤ fuel)
    (hrest : EndsNumber rest) : readValue fuel depth (write value ++ rest) = .ok (value, rest) := by
  obtain ⟨depth, rfl⟩ : ∃ k, depth = k + 1 := ⟨depth - 1, by omega⟩
  match value with
  | .null => exact readValue_of_scalar ⟨'n', _, rfl, .inr (by simp)⟩ hfuel rfl
  | .bool false => exact readValue_of_scalar ⟨'f', _, rfl, .inr (by simp)⟩ hfuel rfl
  | .bool true => exact readValue_of_scalar ⟨'t', _, rfl, .inr (by simp)⟩ hfuel rfl
  | .int n =>
      have hlength : (Nat.toDigits 10 n.natAbs).length ≤ maxDigits := by
        simpa [hasHugeInteger] using hint
      exact readValue_of_scalar (writeInt_head n) hfuel (readScalar_writeInt hlength hrest)
  | .float x => exact readValue_of_scalar (writeFloat_head x) hfuel (readScalar_writeFloat x hrest)
  | .str s =>
      have hlength := length_le_writeString s
      rw [write] at hfuel ⊢
      obtain ⟨fuel, rfl⟩ : ∃ k, fuel = k + 1 := ⟨fuel - 1, by omega⟩
      have htext : writeString s ++ rest = '"' :: (s.toList.flatMap escapeChar ++ '"' :: rest) := by
        simp [writeString]
      rw [htext, readValue.eq_def]
      simp only [readString_flatMap_escapeChar (show s.toList.length < fuel by omega), Except.map,
        String.ofList_toList]
  | .arr [] =>
      rw [write, List.length_cons] at hfuel
      obtain ⟨fuel, rfl⟩ : ∃ k, fuel = k + 1 := ⟨fuel - 1, by omega⟩
      rfl
  | .obj [] =>
      rw [write, List.length_cons] at hfuel
      obtain ⟨fuel, rfl⟩ : ∃ k, fuel = k + 1 := ⟨fuel - 1, by omega⟩
      rfl
  | .arr (item :: items) =>
      obtain ⟨c, s, hwrite, hspace, hbracket⟩ := write_head item
      rw [write, List.cons_append, List.length_cons] at hfuel
      obtain ⟨fuel, rfl⟩ : ∃ k, fuel = k + 1 := ⟨fuel - 1, by omega⟩
      have hitems : readItems fuel depth (write item ++ writeItems items ++ rest) =
          .ok (item :: items, rest) :=
        readItems_write (item :: items) hkeys hint hdepth rfl (by omega)
      rw [write, hwrite]
      rw [hwrite] at hitems
      simp only [List.cons_append] at hitems ⊢
      rw [readValue_bracket _ _ hspace hbracket, hitems]
      rfl
  | .obj ((key, value) :: fields) =>
      have htext : write (.obj ((key, value) :: fields)) =
          '\x7b' :: (writeString key ++ ':' :: ' ' :: write value ++ writeFields fields) := by
        simp [write]
      rw [htext, List.length_cons] at hfuel
      obtain ⟨fuel, rfl⟩ : ∃ k, fuel = k + 1 := ⟨fuel - 1, by omega⟩
      have hfields : readFields fuel depth
          (writeString key ++ ':' :: ' ' :: write value ++ writeFields fields ++ rest) =
          .ok ((key, value) :: fields, rest) :=
        readFields_write ((key, value) :: fields) hkeys.2 hint hdepth rfl (by omega)
      rw [htext]
      rw [writeString] at hfields ⊢
      simp only [List.cons_append] at hfields ⊢
      rw [readValue_brace _ _ (by decide) (by decide), hfields]
      simp only [Except.map, distinct_eq_self hkeys.1]
termination_by structural value

/-- Items are written with a comma in front of each; behind the first comma they are read. -/
theorem readItems_write (items : List Json) {fuel depth : Nat} {text rest : List Char}
    (hkeys : ItemsHaveUniqueKeys items) (hint : hasHugeItem items = false)
    (hdepth : heightItems items < depth + 1) (htext : writeItems items = ',' :: ' ' :: text)
    (hfuel : 2 * text.length ≤ fuel) :
    readItems fuel depth (text ++ rest) = .ok (items, rest) := by
  match items with
  | [] => cases htext
  | item :: items =>
      obtain rfl : write item ++ writeItems items = text := by
        simpa [writeItems] using htext
      rw [List.length_append] at hfuel
      rw [heightItems] at hdepth
      obtain ⟨hitem, hrest⟩ := Bool.or_eq_false_iff.mp hint
      -- The closing bracket leaves fuel for the step to the next item.
      have hbound : 0 < (writeItems items).length := by
        cases items <;> simp [writeItems]
      obtain ⟨fuel, rfl⟩ : ∃ k, fuel = k + 1 := ⟨fuel - 1, by omega⟩
      rw [readItems, List.append_assoc, readValue_write item hkeys.1 hitem (by omega) (by omega)
        (endsNumber_writeItems items rest)]
      simp only [bind, Except.bind]
      match items with
      | [] => rfl
      | other :: items =>
          obtain ⟨c, s, hwrite, hspace, -⟩ := write_head other
          simp only [writeItems, List.cons_append, List.length_cons] at hfuel
          have hitems : readItems fuel depth (write other ++ writeItems items ++ rest) =
              .ok (other :: items, rest) :=
            readItems_write (other :: items) hkeys.2 hrest (by omega) rfl (by omega)
          rw [writeItems, hwrite]
          rw [hwrite] at hitems
          simp only [List.cons_append] at hitems ⊢
          rw [skipSpace_cons (by decide)]
          simp only [skipSpace_space_cons hspace, hitems]
termination_by structural items

/-- Fields are read like items, behind the first comma. -/
theorem readFields_write (fields : List (String × Json)) {fuel depth : Nat}
    {text rest : List Char} (hkeys : FieldsHaveUniqueKeys fields)
    (hint : hasHugeField fields = false) (hdepth : heightFields fields < depth + 1)
    (htext : writeFields fields = ',' :: ' ' :: text) (hfuel : 2 * text.length ≤ fuel) :
    readFields fuel depth (text ++ rest) = .ok (fields, rest) := by
  match fields with
  | [] => cases htext
  | (key, value) :: fields =>
      obtain rfl : writeString key ++ ':' :: ' ' :: write value ++ writeFields fields = text := by
        simpa [writeFields] using htext
      simp only [List.length_append, List.length_cons] at hfuel
      rw [heightFields] at hdepth
      obtain ⟨hvalue, hrest⟩ := Bool.or_eq_false_iff.mp hint
      have hbound : 0 < (writeFields fields).length := by
        cases fields <;> simp [writeFields]
      obtain ⟨fuel, rfl⟩ : ∃ k, fuel = k + 1 := ⟨fuel - 1, by omega⟩
      have hread : readValue fuel depth (write value ++ (writeFields fields ++ rest)) =
          .ok (value, writeFields fields ++ rest) :=
        readValue_write value hkeys.1 hvalue (by omega) (by omega)
          (endsNumber_writeFields fields rest)
      obtain ⟨c, s, hwrite, hspace, -⟩ := write_head value
      have hkey : readKey fuel
          (writeString key ++ ':' :: ' ' :: write value ++ writeFields fields ++ rest) =
          .ok (key, write value ++ (writeFields fields ++ rest)) := by
        rw [hwrite]
        simpa only [List.append_assoc, List.cons_append] using
          readKey_writeString (by omega) hspace (s ++ (writeFields fields ++ rest))
      rw [readFields, hkey]
      simp only [bind, Except.bind, hread]
      -- A brace ends the fields, or a comma leads to the next of them.
      match fields with
      | [] => rfl
      | (other, value') :: fields =>
          have hwrite' : writeFields ((other, value') :: fields) = ',' :: ' ' ::
              (writeString other ++ ':' :: ' ' :: write value' ++ writeFields fields) := by
            simp [writeFields]
          rw [hwrite', List.length_cons, List.length_cons] at hfuel
          have hfields : readFields fuel depth
              (writeString other ++ ':' :: ' ' :: write value' ++ writeFields fields ++ rest) =
              .ok ((other, value') :: fields, rest) :=
            readFields_write ((other, value') :: fields) hkeys.2 hrest (by omega) rfl (by omega)
          rw [hwrite', writeString]
          rw [writeString] at hfields
          simp only [List.cons_append] at hfields ⊢
          rw [skipSpace_cons (by decide)]
          simp only [skipSpace_space_cons (show isSpace '"' = false by decide), hfields]
termination_by structural fields

end

/-- A value that is written is read back, with blanks around it or without. -/
theorem ofChars_write {value : Json} {depth : Nat} (hkeys : value.HasUniqueKeys)
    (hint : value.hasHugeInteger = false) (hdepth : value.height < depth) :
    ofChars (write value) depth = .ok value := by
  obtain ⟨c, s, hwrite, hspace, -⟩ := write_head value
  have hread : readValue (2 * (write value).length + 2) depth (write value ++ []) =
      .ok (value, []) :=
    readValue_write value hkeys hint hdepth (by omega) (by intro c hc; cases hc)
  rw [List.append_nil] at hread
  have hskip : skipSpace (write value) = write value := by
    rw [hwrite, skipSpace_cons hspace]
  rw [ofChars, hskip, hread]
  rfl

end ColumnFormula.Json
