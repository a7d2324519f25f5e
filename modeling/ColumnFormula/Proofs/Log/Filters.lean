import ColumnFormula.Log.Query

/-!
# Filtered queries

A query with a filter looks into every value that is read, also those that no event has left.
Where all of them are objects it gives exactly those with the texts asked for, the newest first
and up to its limit; a value of another kind stops it.
-/

namespace ColumnFormula.Log

/-- The text that a filter asks for; an empty one asks for nothing. -/
def wanted (filter : Option String) : Option String :=
  filter.filter (!·.isEmpty)

/-- Whether a value has the text that a filter asks for in a field. -/
def Passes (key : String) (filter : Option String) (value : Json) : Prop :=
  ∀ text ∈ wanted filter, value.get? key = some (.str text)

/-- Whether a value is an object that passes the filters for levels and for kinds. -/
structure IsSelected (level kind : Option String) (value : Json) : Prop where
  isObj : value.isObj = true
  level : Passes "level" level value
  kind : Passes "event_type" kind value

/-! ## One filter -/

theorem fieldIs_iff {key text : String} {value : Json} :
    fieldIs key text value = true ↔ value.get? key = some (.str text) := by
  unfold fieldIs
  split
  next s heq => simp [heq]
  next hother => exact ⟨fun h => (by cases h), fun h => absurd h (hother text)⟩

instance (key : String) (filter : Option String) (value : Json) :
    Decidable (Passes key filter value) :=
  decidable_of_iff (∀ text ∈ wanted filter, fieldIs key text value = true)
    (forall₂_congr fun _ _ => fieldIs_iff)

instance (level kind : Option String) (value : Json) : Decidable (IsSelected level kind value) :=
  decidable_of_iff
    (value.isObj = true ∧ Passes "level" level value ∧ Passes "event_type" kind value)
    ⟨fun h => ⟨h.1, h.2.1, h.2.2⟩, fun h => ⟨h.isObj, h.level, h.kind⟩⟩

/-- A filter that asks for a text looks into every value before it keeps any. -/
theorem applyFilter_eq (key : String) (filter : Option String) (values : List Json) :
    applyFilter key filter values =
      match wanted filter with
      | none => .ok values
      | some text =>
        if values.all Json.isObj then .ok (values.filter (fieldIs key text))
        else .error .notAnObject := by
  cases filter with
  | none => rfl
  | some text =>
      rw [applyFilter, wanted, Option.filter_some]
      cases text.isEmpty <;> rfl

theorem applyFilter_of_wanted_eq_none {key : String} {filter : Option String}
    (h : wanted filter = none) (values : List Json) : applyFilter key filter values = .ok values := by
  rw [applyFilter_eq, h]

theorem applyFilter_of_isObj {values : List Json} (h : ∀ value ∈ values, value.isObj = true)
    (key : String) (filter : Option String) :
    applyFilter key filter values = .ok (values.filter (Passes key filter ·)) := by
  rw [applyFilter_eq]
  cases hwanted : wanted filter with
  | none =>
      have hall : ∀ value ∈ values, decide (Passes key filter value) = true := by
        simp [Passes, hwanted]
      rw [List.filter_eq_self.mpr hall]
  | some text =>
      have hkept : ∀ value, fieldIs key text value = decide (Passes key filter value) := by
        intro value
        rw [Bool.eq_iff_iff, decide_eq_true_iff, fieldIs_iff, Passes, hwanted]
        simp
      rw [← List.filter_congr fun value _ => hkept value]
      exact if_pos (List.all_eq_true.mpr h)

theorem applyFilter_of_not_isObj {filter : Option String} {values : List Json} {value : Json}
    (hasks : wanted filter ≠ none) (hmem : value ∈ values) (hvalue : value.isObj = false)
    (key : String) : applyFilter key filter values = .error .notAnObject := by
  obtain ⟨text, htext⟩ := Option.ne_none_iff_exists'.mp hasks
  have hall : ¬ values.all Json.isObj = true := by
    intro hall
    rw [List.all_eq_true.mp hall value hmem] at hvalue
    cases hvalue
  rw [applyFilter_eq, htext]
  exact if_neg hall

/-! ## The query -/

theorem takeLimit_of_nonneg {limit : Int} (h : 0 ≤ limit) (values : List Json) :
    takeLimit limit values = values.take (min limit maxLimit).toNat := by
  have hlimit : 0 ≤ maxLimit := by decide
  rw [takeLimit, if_pos (by omega)]

section Query

variable {log : Log} {tree : FileTree} {level kind : Option String} {limit : Int}
  {full : List Json}

/-- A query that gives a list has read the file. -/
theorem exists_readFile_of_readGlobal {events : List Json}
    (h : log.readGlobal level kind limit tree = .ok events) :
    ∃ full, log.readFile (globalFile log.folder) tree = .ok full := by
  cases hread : log.readFile (globalFile log.folder) tree with
  | ok full => exact ⟨full, rfl⟩
  | error error =>
      rw [readGlobal, hread] at h
      cases h

/-- Of values that are all objects, the query gives those that pass both filters. -/
theorem readGlobal_of_objects (hread : log.readFile (globalFile log.folder) tree = .ok full)
    (hobjects : ∀ value ∈ full, value.isObj = true) :
    log.readGlobal level kind limit tree =
      .ok (takeLimit limit (full.filter (IsSelected level kind ·)).reverse) := by
  have hkept : ∀ value ∈ full.filter (Passes "level" level ·), value.isObj = true :=
    fun value hvalue => hobjects value (List.mem_filter.mp hvalue).1
  have hselected : ∀ value ∈ full,
      (decide (Passes "event_type" kind value) && decide (Passes "level" level value)) =
        decide (IsSelected level kind value) := by
    intro value hvalue
    rw [Bool.eq_iff_iff, Bool.and_eq_true, decide_eq_true_iff, decide_eq_true_iff,
      decide_eq_true_iff]
    exact ⟨fun h => ⟨hobjects value hvalue, h.2, h.1⟩, fun h => ⟨h.kind, h.level⟩⟩
  rw [readGlobal, hread]
  simp only [bind, Except.bind, applyFilter_of_isObj hobjects, applyFilter_of_isObj hkept,
    List.filter_filter]
  rw [List.filter_congr fun value hvalue => hselected value hvalue]

theorem readGlobal_of_isObj (hread : log.readFile (globalFile log.folder) tree = .ok full)
    (hobjects : ∀ value ∈ full, value.isObj = true) (hlimit : 0 ≤ limit) :
    log.readGlobal level kind limit tree =
      .ok ((full.filter (IsSelected level kind ·)).reverse.take (min limit maxLimit).toNat) := by
  rw [readGlobal_of_objects hread hobjects, takeLimit_of_nonneg hlimit]

/-- The first filter that asks for a text stops at a value that is no object. -/
theorem readGlobal_of_not_isObj (hread : log.readFile (globalFile log.folder) tree = .ok full)
    (hasks : wanted level ≠ none ∨ wanted kind ≠ none)
    (hvalue : ∃ value ∈ full, value.isObj = false) :
    log.readGlobal level kind limit tree = .error .notAnObject := by
  obtain ⟨value, hmem, hvalue⟩ := hvalue
  rw [readGlobal, hread]
  by_cases hlevel : wanted level = none
  · have hkind : wanted kind ≠ none := hasks.resolve_left (absurd hlevel)
    simp only [bind, Except.bind, applyFilter_of_wanted_eq_none hlevel,
      applyFilter_of_not_isObj hkind hmem hvalue]
  · simp only [bind, Except.bind, applyFilter_of_not_isObj hlevel hmem hvalue]

/-- A query with a filter gives a list exactly if the file is read and has only objects. -/
theorem readGlobal_eq_ok_iff (hasks : wanted level ≠ none ∨ wanted kind ≠ none)
    (hlimit : 0 ≤ limit) {events : List Json} :
    log.readGlobal level kind limit tree = .ok events ↔
      ∃ full, log.readFile (globalFile log.folder) tree = .ok full ∧
        (∀ value ∈ full, value.isObj = true) ∧
        events = (full.filter (IsSelected level kind ·)).reverse.take
          (min limit maxLimit).toNat := by
  constructor
  · intro h
    obtain ⟨full, hread⟩ := exists_readFile_of_readGlobal h
    have hobjects : ∀ value ∈ full, value.isObj = true := by
      intro value hmem
      cases hvalue : value.isObj with
      | true => rfl
      | false =>
          rw [readGlobal_of_not_isObj hread hasks ⟨value, hmem, hvalue⟩] at h
          cases h
    rw [readGlobal_of_isObj hread hobjects hlimit] at h
    exact ⟨full, hread, hobjects, (Except.ok.inj h).symm⟩
  · rintro ⟨full, hread, hobjects, rfl⟩
    exact readGlobal_of_isObj hread hobjects hlimit

end Query

end ColumnFormula.Log
