import ColumnFormula.Log.Reporter

/-!
# What redaction hides

Two contexts that differ in nothing but the values of sensitive keys are redacted to the same
context, and so leave the same lines in a log, unless they differ within a list that is an item
of a list: redaction does not look into such lists, and what stands in them is logged as it is.
-/

namespace ColumnFormula.Redaction

/-! ## Sensitive keys -/

theorem occursIn_iff {word s : List Char} : occursIn word s = true ↔ word <:+: s := by
  induction s with
  | nil => simp [occursIn]
  | cons c s ih => rw [occursIn, Bool.or_eq_true, List.isPrefixOf_iff_prefix, ih, List.infix_cons_iff]

/-- A key is sensitive if one of the words occurs in it, in either case. -/
theorem isSensitive_iff {key : String} :
    isSensitive key = true ↔
      ∃ word ∈ sensitiveWords, word <:+: key.toList.map foldLetter := by
  simp only [isSensitive, List.any_eq_true, occursIn_iff]

/-! ## Contexts that differ in secrets only -/

mutual

/-- Values that are equal but for the values of sensitive keys, at any depth. -/
inductive Agree : Json → Json → Prop
  | refl (value : Json) : Agree value value
  | arr {items items' : List Json} : AgreeItems items items' → Agree (.arr items) (.arr items')
  | obj {fields fields' : List (String × Json)} :
      AgreeFields fields fields' → Agree (.obj fields) (.obj fields')

/-- `Agree` for each item. -/
inductive AgreeItems : List Json → List Json → Prop
  | nil : AgreeItems [] []
  | cons {item item' : Json} {items items' : List Json} :
      Agree item item' → AgreeItems items items' → AgreeItems (item :: items) (item' :: items')

/-- The same keys in the same order, with `Agree` for the values of those that are not
sensitive. -/
inductive AgreeFields : List (String × Json) → List (String × Json) → Prop
  | nil : AgreeFields [] []
  | cons {key : String} {value value' : Json} {fields fields' : List (String × Json)} :
      Agree value value' → AgreeFields fields fields' →
        AgreeFields ((key, value) :: fields) ((key, value') :: fields')
  | secret {key : String} {value value' : Json} {fields fields' : List (String × Json)} :
      (∃ word ∈ sensitiveWords, word <:+: key.toList.map foldLetter) →
        AgreeFields fields fields' →
          AgreeFields ((key, value) :: fields) ((key, value') :: fields')

end

/-! ## Lists that redaction leaves alone -/

mutual

/-- The lists within the value of a key that is not sensitive which are logged as they are:
the items of lists that are lists themselves. -/
def leftAlone : Json → List Json
  | .obj fields => leftAloneFields fields
  | .arr items => leftAloneItems items
  | _ => []
termination_by structural value => value

/-- `leftAlone` for the items of a list. -/
def leftAloneItems : List Json → List Json
  | [] => []
  | item :: items => leftAloneItem item ++ leftAloneItems items
termination_by structural items => items

/-- `leftAlone` for an item, which may itself be such a list. -/
def leftAloneItem : Json → List Json
  | .obj fields => leftAloneFields fields
  | .arr items => [.arr items]
  | _ => []
termination_by structural item => item

/-- `leftAlone` for the values of the keys that are not sensitive. -/
def leftAloneFields : List (String × Json) → List Json
  | [] => []
  | (key, value) :: fields =>
    (if isSensitive key then [] else leftAlone value) ++ leftAloneFields fields
termination_by structural fields => fields

end

mutual

theorem length_leftAlone {value value' : Json} (h : Agree value value') :
    (leftAlone value).length = (leftAlone value').length := by
  match value, h with
  | _, .refl _ => rfl
  | .arr _, .arr hitems => exact length_leftAloneItems hitems
  | .obj _, .obj hfields => exact length_leftAloneFields hfields
termination_by structural value

theorem length_leftAloneItems {items items' : List Json} (h : AgreeItems items items') :
    (leftAloneItems items).length = (leftAloneItems items').length := by
  match items, h with
  | [], .nil => rfl
  | item :: items, .cons hitem hitems =>
      rw [leftAloneItems, leftAloneItems, List.length_append, List.length_append,
        length_leftAloneItem hitem, length_leftAloneItems hitems]
termination_by structural items

theorem length_leftAloneItem {item item' : Json} (h : Agree item item') :
    (leftAloneItem item).length = (leftAloneItem item').length := by
  match item, h with
  | _, .refl _ => rfl
  | .arr _, .arr _ => rfl
  | .obj _, .obj hfields => exact length_leftAloneFields hfields
termination_by structural item

theorem length_leftAloneFields {fields fields' : List (String × Json)}
    (h : AgreeFields fields fields') :
    (leftAloneFields fields).length = (leftAloneFields fields').length := by
  match fields, h with
  | [], .nil => rfl
  | (key, value) :: fields, .cons hvalue hfields =>
      rw [leftAloneFields, leftAloneFields, List.length_append, List.length_append,
        length_leftAloneFields hfields]
      split
      next => rfl
      next => rw [length_leftAlone hvalue]
  | (key, value) :: fields, .secret hkey hfields =>
      rw [leftAloneFields, leftAloneFields, List.length_append, List.length_append,
        length_leftAloneFields hfields, if_pos (isSensitive_iff.mpr hkey),
        if_pos (isSensitive_iff.mpr hkey)]
termination_by structural fields

end

/-! ## The barrier -/

mutual

theorem redactValue_eq_iff {value value' : Json} (h : Agree value value') :
    redactValue value = redactValue value' ↔ leftAlone value = leftAlone value' := by
  match value, h with
  | _, .refl _ => exact iff_of_true rfl rfl
  | .arr _, .arr hitems =>
      rw [redactValue, redactValue, Json.arr.injEq]
      exact redactItems_eq_iff hitems
  | .obj _, .obj hfields =>
      rw [redactValue, redactValue, Json.obj.injEq]
      exact redact_eq_iff hfields
termination_by structural value

theorem redactItems_eq_iff {items items' : List Json} (h : AgreeItems items items') :
    redactItems items = redactItems items' ↔ leftAloneItems items = leftAloneItems items' := by
  match items, h with
  | [], .nil => exact iff_of_true rfl rfl
  | item :: items, .cons hitem hitems =>
      rw [redactItems, redactItems, List.cons.injEq, redactItem_eq_iff hitem,
        redactItems_eq_iff hitems, leftAloneItems, leftAloneItems,
        List.append_eq_append_iff_of_size_eq_left (length_leftAloneItem hitem)]
termination_by structural items

theorem redactItem_eq_iff {item item' : Json} (h : Agree item item') :
    redactItem item = redactItem item' ↔ leftAloneItem item = leftAloneItem item' := by
  match item, h with
  | _, .refl _ => exact iff_of_true rfl rfl
  | .arr _, .arr _ =>
      -- The list is logged as it is, so it must be the same.
      simp [redactItem, leftAloneItem]
  | .obj _, .obj hfields =>
      rw [redactItem, redactItem, Json.obj.injEq]
      exact redact_eq_iff hfields
termination_by structural item

/-- Contexts that differ in secrets only are redacted alike if and only if the lists that
redaction leaves alone are the same. -/
theorem redact_eq_iff {fields fields' : List (String × Json)} (h : AgreeFields fields fields') :
    redact fields = redact fields' ↔ leftAloneFields fields = leftAloneFields fields' := by
  match fields, h with
  | [], .nil => exact iff_of_true rfl rfl
  | (key, value) :: fields, .cons hvalue hfields =>
      rw [redact, redact, List.cons.injEq, Prod.mk.injEq, redact_eq_iff hfields, leftAloneFields,
        leftAloneFields]
      split
      next => simp
      next =>
        rw [redactValue_eq_iff hvalue,
          List.append_eq_append_iff_of_size_eq_left (length_leftAlone hvalue)]
        simp
  | (key, value) :: fields, .secret hkey hfields =>
      have hsensitive := isSensitive_iff.mpr hkey
      rw [redact, redact, List.cons.injEq, redact_eq_iff hfields, leftAloneFields, leftAloneFields]
      simp [hsensitive]
termination_by structural fields

end

/-! ## Calls -/

mutual

theorem callsForValue_eq {value value' : Json} (h : Agree value value') :
    callsForValue value = callsForValue value' := by
  match value, h with
  | _, .refl _ => rfl
  | .arr _, .arr hitems => rw [callsForValue, callsForValue, callsForItems_eq hitems]
  | .obj _, .obj hfields => rw [callsForValue, callsForValue, calls_eq hfields]
termination_by structural value

theorem callsForItems_eq {items items' : List Json} (h : AgreeItems items items') :
    callsForItems items = callsForItems items' := by
  match items, h with
  | [], .nil => rfl
  | item :: items, .cons hitem hitems =>
      rw [callsForItems, callsForItems, callsForItem_eq hitem, callsForItems_eq hitems]
termination_by structural items

theorem callsForItem_eq {item item' : Json} (h : Agree item item') :
    callsForItem item = callsForItem item' := by
  match item, h with
  | _, .refl _ => rfl
  | .arr _, .arr _ => rfl
  | .obj _, .obj hfields => rw [callsForItem, callsForItem, calls_eq hfields]
termination_by structural item

/-- Redaction does not look into secrets, so it goes equally deep whatever they are. -/
theorem calls_eq {fields fields' : List (String × Json)} (h : AgreeFields fields fields') :
    calls fields = calls fields' := by
  match fields, h with
  | [], .nil => rfl
  | (key, value) :: fields, .cons hvalue hfields =>
      rw [calls, calls, callsForValue_eq hvalue, calls_eq hfields]
  | (key, value) :: fields, .secret hkey hfields =>
      rw [calls, calls, calls_eq hfields, if_pos (isSensitive_iff.mpr hkey),
        if_pos (isSensitive_iff.mpr hkey)]
termination_by structural fields

end

/-- Redaction hides secrets. Contexts that differ in secrets only are redacted alike exactly if
the lists that redaction leaves alone are the same, as they are if there are none; and then
events with these contexts leave the same log behind them. -/
theorem redact_hides_secrets {fields fields' : List (String × Json)}
    (h : AgreeFields fields fields') :
    (redact fields = redact fields' ↔ leftAloneFields fields = leftAloneFields fields') ∧
      (leftAloneFields fields = [] → redact fields = redact fields') ∧
      (leftAloneFields fields = leftAloneFields fields' →
        ∀ (reporter : Reporter) (event : Event) (calcId : Option String),
          reporter.emit { event with context := fields } calcId =
            reporter.emit { event with context := fields' } calcId) := by
  have hiff := redact_eq_iff h
  refine ⟨hiff, ?_, ?_⟩
  · intro hnone
    have hlength := length_leftAloneFields h
    rw [hnone, List.length_nil, eq_comm, List.length_eq_zero_iff] at hlength
    exact hiff.mpr (hnone.trans hlength.symm)
  · intro hsame reporter event calcId
    simp only [Reporter.emit, redact?, calls_eq h, hiff.mpr hsame]

/-- A cookie in an object in a list, and a token that is a list. -/
theorem redact_hides_secrets_cookie :
    let context (cookie : String) (token : List Json) : List (String × Json) :=
      [("trail", .arr [.obj [("Set-COOKIE", .str cookie), ("path", .str "/")], .int 1]),
        ("toKen", .arr token)]
    AgreeFields (context "a" [.arr [.null]]) (context "b" []) ∧
      redact (context "a" [.arr [.null]]) = redact (context "b" []) := by
  intro context
  have hcookie : AgreeFields [("Set-COOKIE", .str "a"), ("path", .str "/")]
      [("Set-COOKIE", .str "b"), ("path", .str "/")] :=
    .secret (isSensitive_iff.mp (by decide)) (.cons (.refl _) .nil)
  have hagree : AgreeFields (context "a" [.arr [.null]]) (context "b" []) :=
    .cons (.arr (.cons (.obj hcookie) (.cons (.refl _) .nil)))
      (.secret (isSensitive_iff.mp (by decide)) .nil)
  exact ⟨hagree, (redact_hides_secrets hagree).2.1 (by decide)⟩

/-- A password in an object in a list in a list is not hidden. -/
theorem redact_shows_nested_password :
    let context (password : String) : List (String × Json) :=
      [("a", .arr [.arr [.obj [("password", .str password)]]])]
    AgreeFields (context "x") (context "y") ∧ redact (context "x") ≠ redact (context "y") := by
  intro context
  have hsecret : AgreeFields [("password", .str "x")] [("password", .str "y")] :=
    .secret (isSensitive_iff.mp (by decide)) .nil
  have hagree : AgreeFields (context "x") (context "y") :=
    .cons (.arr (.cons (.arr (.cons (.obj hsecret) .nil)) .nil)) .nil
  refine ⟨hagree, ?_⟩
  rw [Ne, redact_eq_iff hagree]
  have hplain : isSensitive "a" = false := by decide
  simp [context, leftAloneFields, leftAlone, leftAloneItems, leftAloneItem, hplain]

end ColumnFormula.Redaction
