import ColumnFormula.Proofs.Event.Redaction

/-!
# What redaction leaves

A redacted context has the shape of the context: the same objects with the same keys, and lists of
the same length. Only values of sensitive keys are replaced and only long strings are cut, and a
string that was cut has the same beginning as before. So redacting a context twice is redacting it
once, although a string that was cut is still a long one; and there is room for the second time
where there was for the first. Where there is not, the context is nested deeply, for not even
two calls stand in one another for each object or list.
-/

namespace ColumnFormula.Redaction

/-! ## Strings that are cut -/

variable {s : String}

theorem toList_truncate (h : keptLength < s.toList.length) :
    (truncate s).toList = s.toList.take keptLength ++ truncatedMark.toList := by
  rw [truncate, if_pos h, String.toList_append, String.toList_ofList]

theorem length_take_keptLength (h : keptLength < s.toList.length) :
    (s.toList.take keptLength).length = keptLength :=
  List.length_take_of_le (Nat.le_of_lt h)

/-- A string that was cut is still a long one, because of its mark. -/
theorem keptLength_lt_length_truncate (h : keptLength < s.toList.length) :
    keptLength < (truncate s).toList.length := by
  rw [toList_truncate h, List.length_append, length_take_keptLength h]
  exact Nat.lt_add_of_pos_right (by decide)

/-- A string that was cut keeps its beginning when it is cut again, and the mark is the same. -/
theorem truncate_truncate (s : String) : truncate (truncate s) = truncate s := by
  by_cases h : keptLength < s.toList.length
  · have hkept := Nat.le_of_eq (length_take_keptLength h).symm
    apply String.toList_inj.mp
    rw [toList_truncate (keptLength_lt_length_truncate h), toList_truncate h,
      List.take_append_of_le_length hkept, List.take_take, Nat.min_self]
  · have hshort : truncate s = s := if_neg h
    rw [hshort, hshort]

/-! ## Redacting twice -/

mutual

theorem redactValue_redactValue (value : Json) :
    redactValue (redactValue value) = redactValue value := by
  match value with
  | .null => rfl
  | .bool _ => rfl
  | .int _ => rfl
  | .float _ => rfl
  | .str s => rw [redactValue, redactValue, truncate_truncate]
  | .arr items => rw [redactValue, redactValue, redactItems_redactItems items]
  | .obj fields => rw [redactValue, redactValue, redact_redact fields]
termination_by structural value

theorem redactItems_redactItems (items : List Json) :
    redactItems (redactItems items) = redactItems items := by
  match items with
  | [] => rfl
  | item :: items =>
      rw [redactItems, redactItems, redactItem_redactItem item, redactItems_redactItems items]
termination_by structural items

theorem redactItem_redactItem (item : Json) : redactItem (redactItem item) = redactItem item := by
  match item with
  | .null => rfl
  | .bool _ => rfl
  | .int _ => rfl
  | .float _ => rfl
  | .str s => rw [redactItem, redactItem, truncate_truncate]
  | .arr _ => rfl
  | .obj fields => rw [redactItem, redactItem, redact_redact fields]
termination_by structural item

theorem redact_redact (fields : List (String × Json)) : redact (redact fields) = redact fields := by
  match fields with
  | [] => rfl
  | (key, value) :: fields =>
      rw [redact, redact, redact_redact fields]
      split
      next => rfl
      next => rw [redactValue_redactValue value]
termination_by structural fields

end

/-! ## Shape -/

mutual

/-- Values of one shape that are equal but for the values of sensitive keys, of which the second
one may show the mark of redaction instead, and for strings of more than 256 characters, of which it
may show the first 256 and the mark of a cut. -/
inductive ShownAs : Json → Json → Prop
  | same (value : Json) : ShownAs value value
  | cut {s : String} : 256 < s.toList.length →
      ShownAs (.str s) (.str (String.ofList (s.toList.take 256) ++ "...[truncated]"))
  | arr {items items' : List Json} : ItemsShownAs items items' → ShownAs (.arr items) (.arr items')
  | obj {fields fields' : List (String × Json)} :
      FieldsShownAs fields fields' → ShownAs (.obj fields) (.obj fields')

/-- `ShownAs` for each item. -/
inductive ItemsShownAs : List Json → List Json → Prop
  | nil : ItemsShownAs [] []
  | cons {item item' : Json} {items items' : List Json} :
      ShownAs item item' → ItemsShownAs items items' →
        ItemsShownAs (item :: items) (item' :: items')

/-- The same keys in the same order, with `ShownAs` for the values, or the mark of redaction for
the value of a sensitive key. -/
inductive FieldsShownAs : List (String × Json) → List (String × Json) → Prop
  | nil : FieldsShownAs [] []
  | cons {key : String} {value value' : Json} {fields fields' : List (String × Json)} :
      ShownAs value value' → FieldsShownAs fields fields' →
        FieldsShownAs ((key, value) :: fields) ((key, value') :: fields')
  | secret {key : String} {value : Json} {fields fields' : List (String × Json)} :
      (∃ word ∈ sensitiveWords, word <:+: key.toList.map foldLetter) →
        FieldsShownAs fields fields' →
          FieldsShownAs ((key, value) :: fields) ((key, .str "[REDACTED]") :: fields')

end

theorem shownAs_truncate (s : String) : ShownAs (.str s) (.str (truncate s)) := by
  unfold truncate
  split
  next hlong => exact .cut hlong
  next => exact .same _

mutual

theorem shownAs_redactValue (value : Json) : ShownAs value (redactValue value) := by
  match value with
  | .null => exact .same _
  | .bool _ => exact .same _
  | .int _ => exact .same _
  | .float _ => exact .same _
  | .str s => exact shownAs_truncate s
  | .arr items => exact .arr (itemsShownAs_redactItems items)
  | .obj fields => exact .obj (fieldsShownAs_redact fields)
termination_by structural value

theorem itemsShownAs_redactItems (items : List Json) : ItemsShownAs items (redactItems items) := by
  match items with
  | [] => exact .nil
  | item :: items => exact .cons (shownAs_redactItem item) (itemsShownAs_redactItems items)
termination_by structural items

theorem shownAs_redactItem (item : Json) : ShownAs item (redactItem item) := by
  match item with
  | .null => exact .same _
  | .bool _ => exact .same _
  | .int _ => exact .same _
  | .float _ => exact .same _
  | .str s => exact shownAs_truncate s
  | .arr _ => exact .same _
  | .obj fields => exact .obj (fieldsShownAs_redact fields)
termination_by structural item

theorem fieldsShownAs_redact (fields : List (String × Json)) :
    FieldsShownAs fields (redact fields) := by
  match fields with
  | [] => exact .nil
  | (key, value) :: fields =>
      rw [redact]
      split
      next hkey => exact .secret (isSensitive_iff.mp hkey) (fieldsShownAs_redact fields)
      next => exact .cons (shownAs_redactValue value) (fieldsShownAs_redact fields)
termination_by structural fields

end

/-! ## Room -/

mutual

theorem callsForValue_redactValue (value : Json) :
    callsForValue (redactValue value) = callsForValue value := by
  match value with
  | .null => rfl
  | .bool _ => rfl
  | .int _ => rfl
  | .float _ => rfl
  | .str _ => rfl
  | .arr items => rw [redactValue, callsForValue, callsForValue, callsForItems_redactItems items]
  | .obj fields => rw [redactValue, callsForValue, callsForValue, calls_redact fields]
termination_by structural value

theorem callsForItems_redactItems (items : List Json) :
    callsForItems (redactItems items) = callsForItems items := by
  match items with
  | [] => rfl
  | item :: items =>
      rw [redactItems, callsForItems, callsForItems, callsForItem_redactItem item,
        callsForItems_redactItems items]
termination_by structural items

theorem callsForItem_redactItem (item : Json) :
    callsForItem (redactItem item) = callsForItem item := by
  match item with
  | .null => rfl
  | .bool _ => rfl
  | .int _ => rfl
  | .float _ => rfl
  | .str _ => rfl
  | .arr _ => rfl
  | .obj fields => rw [redactItem, callsForItem, callsForItem, calls_redact fields]
termination_by structural item

/-- A redacted context takes as many calls as the context. -/
theorem calls_redact (fields : List (String × Json)) : calls (redact fields) = calls fields := by
  match fields with
  | [] => rfl
  | (key, value) :: fields =>
      rw [redact, calls, calls, calls_redact fields]
      split
      next => rfl
      next => rw [callsForValue_redactValue value]
termination_by structural fields

end

mutual

theorem callsForValue_le (value : Json) : callsForValue value ≤ 2 * value.height + 1 := by
  match value with
  | .null => exact Nat.le_refl 1
  | .bool _ => exact Nat.le_refl 1
  | .int _ => exact Nat.le_refl 1
  | .float _ => exact Nat.le_refl 1
  | .str _ => exact Nat.le_refl 1
  | .arr items =>
      rw [callsForValue, Json.height]
      exact Nat.succ_le_succ (callsForItems_le items)
  | .obj fields =>
      rw [callsForValue, Json.height]
      exact calls_le fields
termination_by structural value

theorem callsForItems_le (items : List Json) :
    callsForItems items ≤ 2 * Json.heightItems items := by
  match items with
  | [] => exact Nat.le_refl 0
  | item :: items =>
      have hitem := callsForItem_le item
      have hitems := callsForItems_le items
      rw [callsForItems, Json.heightItems]
      omega
termination_by structural items

theorem callsForItem_le (item : Json) : callsForItem item ≤ 2 * item.height + 2 := by
  match item with
  | .null => exact Nat.le_succ 1
  | .bool _ => exact Nat.le_succ 1
  | .int _ => exact Nat.le_succ 1
  | .float _ => exact Nat.le_succ 1
  | .str _ => exact Nat.le_succ 1
  | .arr _ => exact Nat.le_add_left 1 _
  | .obj fields =>
      rw [callsForItem, Json.height]
      exact Nat.succ_le_succ (calls_le fields)
termination_by structural item

theorem calls_le (fields : List (String × Json)) :
    calls fields ≤ 2 * Json.heightFields fields + 1 := by
  match fields with
  | [] => exact Nat.le_refl 1
  | (key, value) :: fields =>
      have hvalue := callsForValue_le value
      have hfields := calls_le fields
      rw [calls, Json.heightFields]
      split <;> omega
termination_by structural fields

end

end ColumnFormula.Redaction
