import ColumnFormula.Proofs.Json.RoundTrip

/-!
# Fields in the order of their keys

Sorting the fields of the objects in a value changes nothing but their order. So a value that
is written with sorted keys is read back as the same value, up to the order of fields.
-/

namespace ColumnFormula.Json

/-! ## The order of fields -/

mutual

/-- Values that are equal but for the order of the fields of objects. -/
inductive Same : Json → Json → Prop
  | refl (value : Json) : Same value value
  | arr {items items' : List Json} : SameItems items items' → Same (.arr items) (.arr items')
  | obj {fields fields' : List (String × Json)} :
      SameFields fields fields' → Same (.obj fields) (.obj fields')

/-- `Same` for each item. -/
inductive SameItems : List Json → List Json → Prop
  | nil : SameItems [] []
  | cons {item item' : Json} {items items' : List Json} :
      Same item item' → SameItems items items' → SameItems (item :: items) (item' :: items')

/-- The same fields in some order, with `Same` for their values. -/
inductive SameFields : List (String × Json) → List (String × Json) → Prop
  | nil : SameFields [] []
  | cons {key : String} {value value' : Json} {fields fields' : List (String × Json)} :
      Same value value' → SameFields fields fields' →
        SameFields ((key, value) :: fields) ((key, value') :: fields')
  | swap (field other : String × Json) (fields : List (String × Json)) :
      SameFields (field :: other :: fields) (other :: field :: fields)
  | trans {fields fields' fields'' : List (String × Json)} :
      SameFields fields fields' → SameFields fields' fields'' → SameFields fields fields''

end

theorem sameFields_refl (fields : List (String × Json)) : SameFields fields fields := by
  induction fields with
  | nil => exact .nil
  | cons field fields ih => exact .cons (.refl _) ih

theorem sameFields_insertField (field : String × Json) (fields : List (String × Json)) :
    SameFields (field :: fields) (insertField field fields) := by
  induction fields with
  | nil => exact sameFields_refl _
  | cons other fields ih =>
      rw [insertField]
      split
      next => exact (SameFields.swap field other fields).trans (.cons (.refl _) ih)
      next => exact sameFields_refl _

mutual

theorem same_sortKeys (value : Json) : Same value value.sortKeys := by
  match value with
  | .null => exact .refl _
  | .bool _ => exact .refl _
  | .int _ => exact .refl _
  | .float _ => exact .refl _
  | .str _ => exact .refl _
  | .arr items => exact .arr (sameItems_sortKeysItems items)
  | .obj fields => exact .obj (sameFields_sortKeysFields fields)
termination_by structural value

theorem sameItems_sortKeysItems (items : List Json) : SameItems items (sortKeysItems items) := by
  match items with
  | [] => exact .nil
  | item :: items => exact .cons (same_sortKeys item) (sameItems_sortKeysItems items)
termination_by structural items

theorem sameFields_sortKeysFields (fields : List (String × Json)) :
    SameFields fields (sortKeysFields fields) := by
  match fields with
  | [] => exact .nil
  | (key, value) :: fields =>
      exact (SameFields.cons (same_sortKeys value) (sameFields_sortKeysFields fields)).trans
        (sameFields_insertField _ _)
termination_by structural fields

end

/-! ## What sorting keeps -/

theorem heightFields_insertField (field : String × Json) (fields : List (String × Json)) :
    heightFields (insertField field fields) = max (field.2.height + 1) (heightFields fields) := by
  induction fields with
  | nil => rfl
  | cons other fields ih =>
      rw [insertField]
      split
      next =>
        simp only [heightFields, ih]
        omega
      next => rfl

theorem hasHugeField_insertField (field : String × Json) (fields : List (String × Json)) :
    hasHugeField (insertField field fields) =
      (field.2.hasHugeInteger || hasHugeField fields) := by
  induction fields with
  | nil => rfl
  | cons other fields ih =>
      rw [insertField]
      split
      next =>
        simp only [hasHugeField, ih]
        exact Bool.or_left_comm _ _ _
      next => rfl

theorem perm_insertField (field : String × Json) (fields : List (String × Json)) :
    (insertField field fields).Perm (field :: fields) := by
  induction fields with
  | nil => exact .refl _
  | cons other fields ih =>
      rw [insertField]
      split
      next => exact (ih.cons other).trans (.swap _ _ _)
      next => exact .refl _

theorem fieldsHaveUniqueKeys_insertField {field : String × Json} {fields : List (String × Json)}
    (hfield : field.2.HasUniqueKeys) (hfields : FieldsHaveUniqueKeys fields) :
    FieldsHaveUniqueKeys (insertField field fields) := by
  induction fields with
  | nil => exact ⟨hfield, trivial⟩
  | cons other fields ih =>
      rw [insertField]
      split
      next => exact ⟨hfields.1, ih hfields.2⟩
      next => exact ⟨hfield, hfields⟩

theorem perm_keys_sortKeysFields (fields : List (String × Json)) :
    ((sortKeysFields fields).map Prod.fst).Perm (fields.map Prod.fst) := by
  induction fields with
  | nil => exact .refl _
  | cons field fields ih =>
      exact ((perm_insertField _ _).map Prod.fst).trans (ih.cons field.1)

mutual

theorem height_sortKeys (value : Json) : value.sortKeys.height = value.height := by
  match value with
  | .null => rfl
  | .bool _ => rfl
  | .int _ => rfl
  | .float _ => rfl
  | .str _ => rfl
  | .arr items => exact heightItems_sortKeysItems items
  | .obj fields => exact heightFields_sortKeysFields fields
termination_by structural value

theorem heightItems_sortKeysItems (items : List Json) :
    heightItems (sortKeysItems items) = heightItems items := by
  match items with
  | [] => rfl
  | item :: items =>
      rw [sortKeysItems, heightItems, heightItems, height_sortKeys item,
        heightItems_sortKeysItems items]
termination_by structural items

theorem heightFields_sortKeysFields (fields : List (String × Json)) :
    heightFields (sortKeysFields fields) = heightFields fields := by
  match fields with
  | [] => rfl
  | (key, value) :: fields =>
      rw [sortKeysFields, heightFields_insertField, heightFields, height_sortKeys value,
        heightFields_sortKeysFields fields]
termination_by structural fields

end

mutual

theorem hasHugeInteger_sortKeys (value : Json) :
    value.sortKeys.hasHugeInteger = value.hasHugeInteger := by
  match value with
  | .null => rfl
  | .bool _ => rfl
  | .int _ => rfl
  | .float _ => rfl
  | .str _ => rfl
  | .arr items => exact hasHugeItem_sortKeysItems items
  | .obj fields => exact hasHugeField_sortKeysFields fields
termination_by structural value

theorem hasHugeItem_sortKeysItems (items : List Json) :
    hasHugeItem (sortKeysItems items) = hasHugeItem items := by
  match items with
  | [] => rfl
  | item :: items =>
      rw [sortKeysItems, hasHugeItem, hasHugeItem, hasHugeInteger_sortKeys item,
        hasHugeItem_sortKeysItems items]
termination_by structural items

theorem hasHugeField_sortKeysFields (fields : List (String × Json)) :
    hasHugeField (sortKeysFields fields) = hasHugeField fields := by
  match fields with
  | [] => rfl
  | (key, value) :: fields =>
      rw [sortKeysFields, hasHugeField_insertField, hasHugeField, hasHugeInteger_sortKeys value,
        hasHugeField_sortKeysFields fields]
termination_by structural fields

end

mutual

theorem hasUniqueKeys_sortKeys (value : Json) (h : value.HasUniqueKeys) :
    value.sortKeys.HasUniqueKeys := by
  match value with
  | .null => trivial
  | .bool _ => trivial
  | .int _ => trivial
  | .float _ => trivial
  | .str _ => trivial
  | .arr items => exact itemsHaveUniqueKeys_sortKeysItems items h
  | .obj fields =>
      exact ⟨(perm_keys_sortKeysFields fields).nodup_iff.mpr h.1,
        fieldsHaveUniqueKeys_sortKeysFields fields h.2⟩
termination_by structural value

theorem itemsHaveUniqueKeys_sortKeysItems (items : List Json) (h : ItemsHaveUniqueKeys items) :
    ItemsHaveUniqueKeys (sortKeysItems items) := by
  match items with
  | [] => trivial
  | item :: items =>
      exact ⟨hasUniqueKeys_sortKeys item h.1, itemsHaveUniqueKeys_sortKeysItems items h.2⟩
termination_by structural items

theorem fieldsHaveUniqueKeys_sortKeysFields (fields : List (String × Json))
    (h : FieldsHaveUniqueKeys fields) : FieldsHaveUniqueKeys (sortKeysFields fields) := by
  match fields with
  | [] => trivial
  | (key, value) :: fields =>
      exact fieldsHaveUniqueKeys_insertField (hasUniqueKeys_sortKeys value h.1)
        (fieldsHaveUniqueKeys_sortKeysFields fields h.2)
termination_by structural fields

end

/-! ## Fields of sorted values -/

theorem lookup_insertField {field : String × Json} {fields : List (String × Json)}
    (h : field.1 ∉ fields.map Prod.fst) (key : String) :
    (insertField field fields).lookup key = (field :: fields).lookup key := by
  induction fields with
  | nil => rfl
  | cons other fields ih =>
      rcases field with ⟨first, value⟩
      rcases other with ⟨second, value'⟩
      rw [List.map_cons, List.mem_cons, not_or] at h
      rw [insertField]
      split
      next =>
        by_cases hsecond : key = second
        · -- The new field is moved behind one with the key, but has another key itself.
          have hfirst : key ≠ first := fun heq => h.1 (heq.symm.trans hsecond)
          simp [List.lookup_cons, hsecond, beq_eq_false_iff_ne.mpr (hsecond ▸ hfirst)]
        · have hbeq : (key == second) = false := by simpa using hsecond
          simp only [List.lookup_cons, hbeq, ih h.2]
      next => rfl

/-- Sorting the fields of an object changes the values of fields only by sorting them, too. -/
theorem lookup_sortKeysFields {fields : List (String × Json)} (h : (fields.map Prod.fst).Nodup)
    (key : String) : (sortKeysFields fields).lookup key = (fields.lookup key).map sortKeys := by
  induction fields with
  | nil => rfl
  | cons field fields ih =>
      rcases field with ⟨first, value⟩
      rw [List.map_cons, List.nodup_cons] at h
      have hnew : first ∉ (sortKeysFields fields).map Prod.fst := by
        rw [(perm_keys_sortKeysFields fields).mem_iff]
        exact h.1
      rw [sortKeysFields, lookup_insertField hnew]
      by_cases heq : key = first
      · simp [heq]
      · have hbeq : (key == first) = false := by simpa using heq
        simp only [List.lookup_cons, hbeq, ih h.2]

/-- A value that is written with sorted keys is read back with sorted keys. -/
theorem ofChars_write_sortKeys {value : Json} {depth : Nat} (hkeys : value.HasUniqueKeys)
    (hint : value.hasHugeInteger = false) (hdepth : value.height < depth) :
    ofChars (write value.sortKeys) depth = .ok value.sortKeys := by
  apply ofChars_write (hasUniqueKeys_sortKeys value hkeys)
  · rw [hasHugeInteger_sortKeys, hint]
  · rw [height_sortKeys]
    exact hdepth

end ColumnFormula.Json
