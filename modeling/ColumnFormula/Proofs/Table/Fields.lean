import ColumnFormula.Proofs.Table.Written

/-!
# Scanning written fields

Where a bare text neither begins with a quote nor holds a separator or line feed, a scan takes each
field for what it was written as, and records likewise, so that the cells that are read are those
that were written.
-/

namespace ColumnFormula.Csv

/-- Where a scan stands behind a field. -/
def Field.place : Field → Place
  | .bare [] => .fieldStart
  | .bare (_ :: _) => .bare
  | .quoted _ => .quoted false

/-- Whether fields may be written as a record of a table so wide. -/
structure FitsIn (sep : Char) (width : Nat) (fields : List Field) : Prop where
  nonempty : fields ≠ []
  narrow : width = 0 ∨ fields.length ≤ width
  fits : ∀ field ∈ fields, field.Fits sep

/-! ## The text of a field -/

theorem unescape_escape (s : List Char) : unescape (escape s) = s := by
  induction s with
  | nil => rfl
  | cons c s ih =>
      by_cases hc : c = '"'
      · subst hc
        rw [escape, if_pos rfl, unescape, ih]
      · rw [escape, if_neg hc, unescape, ih]
        · exact fun _ heq => absurd heq hc
        · exact hc

theorem escape_eq_self {s : List Char} (h : '"' ∉ s) : escape s = s := by
  induction s with
  | nil => rfl
  | cons c s ih =>
      rw [List.mem_cons, not_or] at h
      rw [escape, if_neg (Ne.symm h.1), ih h.2]

variable {sep : Char} {field : Field}

theorem Field.Fits.fieldText_write (hfits : field.Fits sep) :
    fieldText field.write = .ok field.text := by
  cases field with
  | bare text => exact if_pos hfits.2.2
  | quoted text =>
      have hinner : inner? (Field.quoted text).write = some (escape text) := by
        rw [Field.write]
        cases escape text with
        | nil => rfl
        | cons c s => rw [List.cons_append, inner?, ← List.cons_append, List.dropLast_concat]
      have hlast : (Field.quoted text).write.getLast? = some '"' := by
        rw [Field.write, ← List.cons_append, List.getLast?_concat]
      rw [fieldText, if_neg (by simp [Field.write])]
      simp only [hinner, if_pos hlast, unescape_escape, Field.text]

theorem mapM_eq_ok {α β ε : Type} {f : α → Except ε β} {g : α → β} {l : List α}
    (h : ∀ a ∈ l, f a = .ok (g a)) : l.mapM f = .ok (l.map g) := by
  induction l with
  | nil => rfl
  | cons a l ih =>
      rw [List.forall_mem_cons] at h
      rw [List.mapM_cons, h.1, ih h.2]
      rfl

/-- The cells of a record are those that were written. -/
theorem cellsOf_write {fields : List Field} (hfits : ∀ field ∈ fields, field.Fits sep) :
    cellsOf (fields.map Field.write) = .ok (fields.map fun field => textCell field.text) := by
  rw [cellsOf, List.mapM_map]
  apply mapM_eq_ok
  intro field hfield
  rw [Function.comp_apply, (hfits field hfield).fieldText_write]
  rfl

/-- The name of a column is the one that was written, if there is no quote in it. -/
theorem Field.nameOf_write (hquote : '"' ∉ field.text) :
    nameOf field.write = String.ofList field.text := by
  cases field with
  | bare text =>
      rw [Field.write, Field.text, nameOf]
      rintro c s rfl
      exact hquote List.mem_cons_self
  | quoted text =>
      rw [Field.text] at hquote
      have hdrop : dropLastByte (text ++ ['"']) = text := by
        rw [dropLastByte, List.getLast?_concat, List.dropLast_concat]
        exact List.append_nil text
      rw [Field.write, Field.text, escape_eq_self hquote]
      cases text with
      | nil => rfl
      | cons c s => exact congrArg String.ofList hdrop

/-! ## Steps of a scan -/

variable {width : Nat} {c : Char} {raw s : List Char} {record : List (List Char)}
  {place next : Place}

theorem Place.next_bare (c : Char) : Place.bare.next c = .bare := rfl

theorem Place.next_fieldStart_quote : Place.fieldStart.next '"' = .quoted true := rfl

theorem Place.next_open_quote : (Place.quoted true).next '"' = .quoted false := rfl

theorem Place.next_closed_quote : (Place.quoted false).next '"' = .quoted true := rfl

theorem scan_open (hnext : place.next c = next) (hopen : next.isOpen = true) :
    scan sep width place raw record (c :: s) = scan sep width next (c :: raw) record s := by
  subst hnext
  rw [scan]
  exact if_pos hopen

/-- Whether fields and records end in a place with separators and line feeds. -/
def Place.IsPlain (place : Place) : Prop :=
  place = .bare ∨ place = .quoted false

theorem scan_plain (hnext : place.next c = next) (hplain : next.IsPlain) (hline : c ≠ '\n')
    (hsep : c ≠ sep) :
    scan sep width place raw record (c :: s) = scan sep width next (c :: raw) record s := by
  rw [scan]
  rcases hplain with rfl | rfl <;> simp [hnext, Place.isOpen, hline, hsep]

theorem scan_separator (hplain : (place.next sep).IsPlain) (hline : sep ≠ '\n') :
    scan sep width place raw record (sep :: s) =
      scan sep width (if record.length + 1 = width then .surplus false else .fieldStart) []
        (raw.reverse :: record) s := by
  rw [scan]
  rcases hplain with hnext | hnext <;> simp [hnext, Place.isOpen, hline]

theorem scan_newline (hplain : (place.next '\n').IsPlain) :
    scan sep width place raw record ('\n' :: s) =
      endRecord place raw record :: scan sep width .fieldStart [] [] s := by
  rw [scan]
  rcases hplain with hnext | hnext <;> simp [hnext, Place.isOpen]

/-! ## Scanning a field -/

theorem scan_bare {text : List Char} (hsep : sep ∉ text) (hline : '\n' ∉ text) :
    scan sep width .bare raw record (text ++ s) =
      scan sep width .bare (text.reverse ++ raw) record s := by
  induction text generalizing raw with
  | nil => rfl
  | cons c text ih =>
      rw [List.mem_cons, not_or] at hsep hline
      rw [List.cons_append,
        scan_plain (Place.next_bare c) (.inl rfl) (Ne.symm hline.1) (Ne.symm hsep.1),
        ih hsep.2 hline.2, List.reverse_cons, List.append_assoc]
      rfl

/-- Doubled quotes leave a scan between the quotes. -/
theorem scan_escape (hquote : sep ≠ '"') (text : List Char) :
    scan sep width (.quoted true) raw record (escape text ++ s) =
      scan sep width (.quoted true) ((escape text).reverse ++ raw) record s := by
  induction text generalizing raw with
  | nil => rfl
  | cons c text ih =>
      by_cases hc : c = '"'
      · subst hc
        rw [escape, if_pos rfl, List.cons_append, List.cons_append,
          scan_plain Place.next_open_quote (.inr rfl) (by decide) (Ne.symm hquote),
          scan_open Place.next_closed_quote rfl, ih]
        simp
      · have hnext : (Place.quoted true).next c = .quoted true :=
          congrArg Place.quoted (if_neg hc)
        rw [escape, if_neg hc, List.cons_append, scan_open hnext rfl, ih]
        simp

theorem Field.Fits.scan_write (hfits : field.Fits sep) (hquote : sep ≠ '"') :
    scan sep width .fieldStart [] record (field.write ++ s) =
      scan sep width field.place field.write.reverse record s := by
  cases field with
  | bare text =>
      obtain ⟨hsep, hline, hhead⟩ := hfits
      cases text with
      | nil => rfl
      | cons c text =>
          rw [List.mem_cons, not_or] at hsep hline
          have hnext : Place.fieldStart.next c = .bare :=
            if_neg fun heq => hhead (congrArg some heq)
          rw [Field.write, List.cons_append,
            scan_plain hnext (.inl rfl) (Ne.symm hline.1) (Ne.symm hsep.1),
            scan_bare hsep.2 hline.2, ← List.reverse_cons]
          rfl
  | quoted text =>
      rw [Field.write, List.cons_append, scan_open Place.next_fieldStart_quote rfl,
        List.append_assoc, scan_escape hquote, List.singleton_append,
        scan_plain Place.next_open_quote (.inr rfl) (by decide) (Ne.symm hquote)]
      simp [Field.place]

theorem Field.isPlain_next_place (field : Field) (hc : c ≠ '"') :
    (field.place.next c).IsPlain := by
  cases field with
  | bare text =>
      left
      cases text with
      | nil => exact if_neg hc
      | cons c text => rfl
  | quoted text =>
      right
      exact congrArg Place.quoted (if_neg hc)

theorem Field.endRecord_place (field : Field) :
    endRecord field.place raw record = (raw.reverse :: record).reverse := by
  unfold Field.place
  split <;> rfl

theorem Field.scan_end (h : field.write ≠ [] ∨ record ≠ []) :
    scan sep width field.place field.write.reverse record [] =
      [(field.write :: record).reverse] := by
  rw [scan, field.endRecord_place, List.reverse_reverse, if_neg]
  rintro ⟨hplace, hnil⟩
  rcases h with hwrite | hrecord
  · apply hwrite
    unfold Field.place at hplace
    split at hplace
    next => rfl
    all_goals cases hplace
  · exact hrecord (List.isEmpty_iff.mp hnil)

/-! ## Scanning records -/

theorem intercalate_concat {α : Type} (sep : List α) (pieces : List (List α)) (last : List α) :
    sep.intercalate (pieces ++ [last]) = pieces.flatMap (· ++ sep) ++ last := by
  induction pieces with
  | nil => exact List.intercalate_singleton
  | cons piece pieces ih =>
      rw [List.cons_append, List.intercalate_cons_of_ne_nil (by simp), ih, List.flatMap_cons,
        List.append_assoc _ _ last]

variable {fields : List Field}

/-- Fields that are each followed by a separator are put to the record. -/
theorem scan_fields (hquote : sep ≠ '"') (hline : sep ≠ '\n')
    (hfits : ∀ field ∈ fields, field.Fits sep)
    (hwidth : width = 0 ∨ record.length + fields.length < width) :
    scan sep width .fieldStart [] record
        (fields.flatMap (fun field => field.write ++ [sep]) ++ s) =
      scan sep width .fieldStart [] ((fields.map Field.write).reverse ++ record) s := by
  induction fields generalizing record with
  | nil => rfl
  | cons field fields ih =>
      rw [List.forall_mem_cons] at hfits
      rw [List.length_cons] at hwidth
      rw [List.flatMap_cons, List.append_assoc, List.append_assoc, List.singleton_append,
        hfits.1.scan_write hquote, scan_separator (field.isPlain_next_place hquote) hline,
        if_neg (by omega),
        ih hfits.2 (by rw [List.length_cons]; omega), List.reverse_reverse]
      simp

/-- A record that is written in a line is read from it. -/
theorem FitsIn.scan_line (h : FitsIn sep width fields) (hquote : sep ≠ '"') (hline : sep ≠ '\n') :
    scan sep width .fieldStart [] [] (writeRecord sep fields ++ '\n' :: s) =
      fields.map Field.write :: scan sep width .fieldStart [] [] s := by
  obtain ⟨hne, hnarrow, hfits⟩ := h
  obtain ⟨init, last, rfl⟩ := List.eq_nil_or_concat fields |>.resolve_left hne
  rw [List.concat_eq_append, List.forall_mem_append, List.forall_mem_singleton] at hfits
  rw [List.length_concat] at hnarrow
  rw [List.concat_eq_append, writeRecord_concat, List.append_assoc,
    scan_fields hquote hline hfits.1 (by rw [List.length_nil]; omega),
    hfits.2.scan_write hquote, scan_newline (last.isPlain_next_place (by decide)),
    last.endRecord_place]
  simp

/-- The last record needs no line feed behind it. -/
theorem FitsIn.scan_last (h : FitsIn sep width fields) (hquote : sep ≠ '"') (hline : sep ≠ '\n')
    (hwrite : writeRecord sep fields ≠ []) :
    scan sep width .fieldStart [] [] (writeRecord sep fields) = [fields.map Field.write] := by
  obtain ⟨hne, hnarrow, hfits⟩ := h
  obtain ⟨init, last, rfl⟩ := List.eq_nil_or_concat fields |>.resolve_left hne
  rw [List.concat_eq_append, List.forall_mem_append, List.forall_mem_singleton] at hfits
  rw [List.length_concat] at hnarrow
  rw [List.concat_eq_append, writeRecord_concat] at hwrite ⊢
  rw [scan_fields hquote hline hfits.1 (by rw [List.length_nil]; omega),
    ← List.append_nil last.write, hfits.2.scan_write hquote, Field.scan_end]
  · simp
  · by_contra hnil
    rw [not_or, not_not, not_not] at hnil
    obtain ⟨hlast, hinit⟩ := hnil
    have hempty : init = [] := by simpa using hinit
    rw [hlast, hempty] at hwrite
    exact hwrite rfl

end ColumnFormula.Csv
