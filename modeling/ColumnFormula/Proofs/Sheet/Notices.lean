import ColumnFormula.Proofs.Sheet.Reports

/-!
# What listeners are told

A recalculation has a text for each of its cells, and these texts are to be told cell by cell,
and for each cell to one listener after the other. Listeners are told all of them unless one
objects; then those up to and including the objection have been told, and no others.
-/

namespace ColumnFormula

/-- A text that a listener is to be told. -/
structure Call where
  listener : Listener
  cell : CellRef
  text : String

namespace Call

/-- Whether the listener objects. -/
def isObjected (call : Call) : Bool :=
  call.listener.objectsTo call.cell

def notice (call : Call) : Notice :=
  ⟨call.listener.name, call.cell, call.text⟩

end Call

/-- What listeners are to be told of some texts: every listener of the first one, in order, then
every listener of the next one. -/
def calls (listeners : List Listener) (texts : List (CellRef × String)) : List Call :=
  texts.flatMap fun entry => listeners.map fun listener => ⟨listener, entry.1, entry.2⟩

/-- The calls that are made: those up to the first objection. -/
def made : List Call → List Call
  | [] => []
  | call :: calls => if call.isObjected then [call] else call :: made calls

theorem made_of_forall {calls : List Call} (h : ∀ call ∈ calls, call.isObjected = false) :
    made calls = calls := by
  induction calls with
  | nil => rfl
  | cons call calls ih =>
      rw [List.forall_mem_cons] at h
      rw [made, h.1, ih h.2]
      rfl

theorem made_append_of_forall {calls : List Call} (h : ∀ call ∈ calls, call.isObjected = false)
    (rest : List Call) : made (calls ++ rest) = calls ++ made rest := by
  induction calls with
  | nil => rfl
  | cons call calls ih =>
      rw [List.forall_mem_cons] at h
      rw [List.cons_append, made, h.1, ih h.2]
      rfl

/-- Nothing behind an objection is made. -/
theorem made_append_of_any {calls : List Call} (h : calls.any Call.isObjected = true)
    (rest : List Call) : made (calls ++ rest) = made calls := by
  induction calls with
  | nil => cases h
  | cons call calls ih =>
      rw [List.cons_append, made, made]
      cases hobjected : call.isObjected with
      | true => rfl
      | false =>
          rw [List.any_cons, hobjected, Bool.false_or] at h
          rw [ih h]

theorem made_append_cons {before : List Call} (h : ∀ call ∈ before, call.isObjected = false)
    {call : Call} (hcall : call.isObjected = true) (rest : List Call) :
    made (before ++ call :: rest) = before ++ [call] := by
  rw [made_append_of_forall h, made, if_pos hcall]

namespace Sheet

variable {σ : Type} {sheet : Sheet} {table : Table} {calcId : String} {cells : List CellRef}
  {texts : List (CellRef × String)}

/-- Listeners are told of one cell. -/
theorem notify_eq (cell : CellRef) (text : String) (listeners : List Listener) :
    notify cell text listeners =
      ((made (calls listeners [(cell, text)])).map Call.notice,
        (calls listeners [(cell, text)]).any Call.isObjected) := by
  induction listeners with
  | nil => rfl
  | cons listener listeners ih =>
      have hcons : calls (listener :: listeners) [(cell, text)] =
          ⟨listener, cell, text⟩ :: calls listeners [(cell, text)] := rfl
      rw [notify, ih, hcons, made, List.any_cons, Call.isObjected]
      cases listener.objectsTo cell <;> rfl

theorem calls_cons (listeners : List Listener) (entry : CellRef × String) :
    calls listeners (entry :: texts) = calls listeners [entry] ++ calls listeners texts := by
  rw [calls, List.flatMap_cons, calls, calls, List.flatMap_singleton]

/-- A pass over cells that show their texts makes the calls up to the first objection, and none
but an objection interrupts it. -/
theorem passOver_of_shows (h : sheet.Shows table cells texts) (receive : σ → Report → σ)
    (receiver : σ) :
    let pass := sheet.passOver receive table calcId cells receiver
    let calls := calls sheet.listeners texts
    pass.notices = (made calls).map Call.notice ∧
      pass.interruption = (if calls.any Call.isObjected then some .listener else none) ∧
      (calls.any Call.isObjected = false → pass.texts = texts) := by
  induction h generalizing receiver with
  | nil => exact ⟨rfl, rfl, fun _ => rfl⟩
  | @cons cell entry cells texts hentry _ ih =>
      obtain ⟨rfl, hshown⟩ := hentry
      rw [← calculate_map_text (some calcId)] at hshown
      cases hcalc : sheet.calculate entry.1 table (some calcId) with
      | error cause =>
          rw [hcalc] at hshown
          cases hshown
      | ok result =>
          obtain ⟨outcome, report⟩ := result
          rw [hcalc] at hshown
          obtain htext : outcome.text = entry.2 := Except.ok.inj hshown
          obtain ⟨hnotices, hinterruption, htexts⟩ := ih (receive receiver report)
          dsimp only
          rw [calls_cons, List.any_append, passOver, hcalc]
          dsimp only
          rw [htext, notify_eq]
          cases hany : (calls sheet.listeners [(entry.1, entry.2)]).any Call.isObjected with
          | true =>
              rw [made_append_of_any hany]
              exact ⟨rfl, rfl, fun h => by cases h⟩
          | false =>
              have hnone : ∀ call ∈ calls sheet.listeners [(entry.1, entry.2)],
                  call.isObjected = false := by simpa using hany
              rw [made_append_of_forall hnone, made_of_forall hnone, List.map_append,
                Bool.false_or]
              refine ⟨?_, hinterruption, fun h => ?_⟩
              · simp only [Bool.false_eq_true, if_false, hnotices]
              · simp only [Bool.false_eq_true, if_false, htexts h]

/-- What a recalculation of cells that show their texts tells the listeners, and its answer. -/
theorem recalculate_of_shows (h : sheet.Shows table cells texts) (receive : σ → Report → σ)
    (receiver : σ) :
    let effect := Effect.ofPass (sheet.recalculate receive cells table receiver)
    let calls := calls sheet.listeners texts
    effect.notices = (made calls).map Call.notice ∧
      effect.answer =
        if calls.any Call.isObjected then .interrupted .listener else .texts texts := by
  obtain ⟨hnotices, hinterruption, htexts⟩ := passOver_of_shows h receive
    (receive receiver (startReport (calcIdOf (sheet.recalculations + 1)) cells.length))
  dsimp only [Effect.ofPass, recalculate]
  refine ⟨hnotices, ?_⟩
  rw [hinterruption]
  cases hany : (calls sheet.listeners texts).any Call.isObjected with
  | true => rfl
  | false => exact congrArg Answer.texts (htexts hany)

end Sheet

end ColumnFormula
