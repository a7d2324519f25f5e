import ColumnFormula.Log.Query
import ColumnFormula.Proofs.Json.Characters
import ColumnFormula.Proofs.Json.SortKeys
import ColumnFormula.Proofs.Text.Utf8

/-!
# The lines of events

An event that is written is one line, whatever its texts are, and this line is read back as
the value of the event with its keys sorted. So the lines of some events are read as their
values, in order.
-/

namespace ColumnFormula

namespace Event

/-- Whether no object in the context of an event has a key twice. -/
def HasUniqueKeys (event : Event) : Prop :=
  (Json.obj event.context).HasUniqueKeys

/-- Whether an event is not refused for its context when it is written within some limits. -/
def IsWritable (event : Event) (limits : Limits) : Prop :=
  event.isTooDeep limits.height = false ∧ event.toJson.hasHugeInteger = false

/-- The value that the line of an event spells: its fields with the keys in order. -/
def dump (event : Event) : Json :=
  event.toJson.sortKeys

theorem hasUniqueKeys_toJson {event : Event} (h : event.HasUniqueKeys) :
    event.toJson.HasUniqueKeys := by
  refine ⟨?_, ?_⟩
  · simp [toFields]
  · refine ⟨trivial, trivial, trivial, trivial, h, trivial, ?_, trivial⟩
    cases event.errorCode <;> trivial

theorem height_optionalText (text : Option String) : (optionalText text).height = 0 := by
  cases text <;> rfl

/-- What is written can be read. -/
theorem height_toJson_lt {event : Event} {limits : Limits}
    (h : event.isTooDeep limits.height = false) : event.toJson.height < limits.depth := by
  have hcontext : (Json.obj event.context).height ≤ limits.height := by
    simpa [isTooDeep] using h
  have hread := limits.height_lt
  simp only [toJson, toFields, Json.height, Json.heightFields, height_optionalText] at hcontext ⊢
  omega

/-- The value of an event is read back from its text. -/
theorem ofChars_write_dump {event : Event} {limits : Limits} (hkeys : event.HasUniqueKeys)
    (h : event.IsWritable limits) :
    Json.ofChars event.dump.write limits.depth = .ok event.dump :=
  Json.ofChars_write_sortKeys (hasUniqueKeys_toJson hkeys) h.2 (height_toJson_lt h.1)

theorem strip_write_dump (event : Event) : Text.strip event.dump.write = event.dump.write :=
  Json.strip_write_obj _

theorem write_dump_ne_nil (event : Event) : event.dump.write ≠ [] := by
  intro hnil
  have hhead := (Json.write_obj_ends (Json.sortKeysFields event.toFields)).1
  rw [show Json.write (.obj (Json.sortKeysFields event.toFields)) = [] from hnil] at hhead
  cases hhead

end Event

namespace Log

/-- The bytes of the line of an event. -/
def lineBytes (event : Event) : List UInt8 :=
  Text.Utf8.encode (line event)

theorem lineBytes_flatMap (events : List Event) :
    events.flatMap lineBytes =
      Text.Utf8.encode ((events.map fun event => event.dump.write).flatMap (· ++ ['\n'])) := by
  induction events with
  | nil => rfl
  | cons event events ih =>
      rw [List.flatMap_cons, ih, List.map_cons, List.flatMap_cons, Text.Utf8.encode_append]
      rfl

/-- The lines of events are the texts of their values. -/
theorem lineTexts_flatMap (events : List Event) :
    lineTexts (events.flatMap lineBytes) = events.map fun event => event.dump.write := by
  have hunbroken : ∀ text ∈ events.map fun event => event.dump.write, ∀ c ∈ text,
      Text.isLineBreak c = false := by
    intro text htext c hc
    obtain ⟨event, -, rfl⟩ := List.mem_map.mp htext
    exact (Json.isPlain_write _ c hc).isLineBreak_eq_false
  have hstrip : (events.map fun event => event.dump.write).map Text.strip =
      events.map fun event => event.dump.write := by
    rw [List.map_map]
    apply List.map_congr_left
    intro event _
    rw [Function.comp, Event.strip_write_dump]
  rw [lineTexts, lineBytes_flatMap, Text.Utf8.decodeLossy_encode, Text.splitLines_flatMap hunbroken,
    hstrip, List.filter_eq_self]
  intro text htext
  obtain ⟨event, -, rfl⟩ := List.mem_map.mp htext
  simp [event.write_dump_ne_nil]

/-- The lines of events are read as their values, in order. -/
theorem valuesOf_flatMap {events : List Event} {limits : Limits}
    (hkeys : ∀ event ∈ events, event.HasUniqueKeys)
    (hwritable : ∀ event ∈ events, event.IsWritable limits) :
    valuesOf limits.depth (lineTexts (events.flatMap lineBytes)) = .ok (events.map Event.dump) := by
  rw [lineTexts_flatMap]
  induction events with
  | nil => rfl
  | cons event events ih =>
      rw [List.forall_mem_cons] at hkeys hwritable
      rw [List.map_cons, valuesOf, Event.ofChars_write_dump hkeys.1 hwritable.1]
      simp only [ih hkeys.2 hwritable.2, Except.map, List.map_cons]

end Log

end ColumnFormula
