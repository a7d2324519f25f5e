import Mathlib.Data.List.Forall2
import ColumnFormula.Session
import ColumnFormula.Proofs.Number.Rounding

/-!
# What a recalculation answers

Nothing that a recalculation does to one cell matters for another one. So as long as no
listener objects, its answer lists the cells with the texts that each of them shows on its
own, and there is an answer exactly if every one of them shows a text. A cell shows none only
if it counts more cells than there are binary64 numbers to say how many.
-/

namespace ColumnFormula

/-! ## Calculations that show a text -/

/-- Whether a machine word counts the cells of every column. -/
def Table.IsCountable (table : Table) : Prop :=
  ∀ column ∈ table.columns, column.cells.length < Nat.pow 2 64

namespace Aggregate

theorem apply_count (cells : List RawText) :
    apply .count cells = .ok (.ofNat (Cell.contents cells).length) :=
  rfl

/-- Only a count may have no text. -/
theorem exists_display {aggregate : Aggregate} {x : Binary64} (integerResults : Bool)
    (h : aggregate = .count → x.isFinite = true) :
    ∃ text, aggregate.display integerResults x = .ok text := by
  unfold display
  split
  · simp [Binary64.isFinite] at h
  · simp [Binary64.isFinite] at h
  · exact ⟨_, rfl⟩
  · split <;> exact ⟨_, rfl⟩
  · exact ⟨_, rfl⟩

/-- The result for cells that a machine word counts has a text. -/
theorem exists_display_of_apply {aggregate : Aggregate} {cells : List RawText} {x : Binary64}
    (h : aggregate.apply cells = .ok x) (hlength : cells.length < Nat.pow 2 64)
    (integerResults : Bool) : ∃ text, aggregate.display integerResults x = .ok text := by
  apply exists_display
  rintro rfl
  rw [apply_count] at h
  rw [← Except.ok.inj h]
  apply Binary64.isFinite_ofNat (k := 64) _ (by omega)
  exact Nat.lt_of_le_of_lt (List.length_filterMap_le Cell.content? cells) hlength

end Aggregate

namespace Sheet

/-- A value is what the aggregate makes of some column. -/
theorem exists_column_of_evaluate {formula : RawText} {table : Table} {evaluation : Evaluation}
    (h : evaluate formula table = .ok evaluation) :
    ∃ column ∈ table.columns,
      evaluation.aggregate.apply (column.cells.map RawText.ofOption) = .ok evaluation.value := by
  simp only [evaluate, bind, Except.bind] at h
  split at h
  · simp at h
  split at h
  · simp at h
  next aggregate _ =>
    split at h
    · simp at h
    next cells hcells =>
      split at h
      · simp at h
      next value hvalue =>
        obtain rfl := Except.ok.inj h
        unfold Table.cells Table.column at hcells
        split at hcells
        next column hcolumn =>
          obtain rfl := Except.ok.inj hcells
          exact ⟨column, List.mem_of_find?_eq_some hcolumn, hvalue⟩
        · simp [Except.map] at hcells

theorem exists_text_outcome {table : Table} (hcount : table.IsCountable) (integerResults : Bool)
    (formula : RawText) (context : List (String × Json)) (calcId : Option String) :
    ∃ text, ((outcome integerResults formula table context calcId).map (·.1)).map
      Outcome.text = .ok text := by
  unfold outcome
  cases heval : evaluate formula table with
  | error error => exact ⟨_, rfl⟩
  | ok evaluation =>
      obtain ⟨column, hcolumn, happly⟩ := exists_column_of_evaluate heval
      obtain ⟨text, htext⟩ := Aggregate.exists_display_of_apply happly
        (by simpa using hcount column hcolumn) integerResults
      dsimp only
      rw [htext]
      exact ⟨_, rfl⟩

/-! ## Passes -/

variable {σ : Type} {sheet : Sheet} {table : Table} {cell : CellRef} {cells : List CellRef}
  {texts : List (CellRef × String)}

/-- What a cell shows when it is calculated. -/
def shown (sheet : Sheet) (table : Table) (cell : CellRef) : Except Interruption String :=
  ((sheet.calculate cell table none).map (·.1)).map Outcome.text

/-- Whether no listener ever objects. -/
def IsQuiet (sheet : Sheet) : Prop :=
  ∀ listener ∈ sheet.listeners, ∀ cell, listener.objectsTo cell = false

/-- Cells with the texts that they show. -/
def Shows (sheet : Sheet) (table : Table) : List CellRef → List (CellRef × String) → Prop :=
  List.Forall₂ fun cell entry => entry.1 = cell ∧ sheet.shown table cell = .ok entry.2

/-- Formulas that come to the same value or failure have the same outcome, whoever asks and
whatever the id of the calculation. -/
theorem outcome_map_fst_congr {formula other : RawText} {table : Table}
    (h : evaluate formula table = evaluate other table) (integerResults : Bool)
    (context otherContext : List (String × Json)) (calcId otherId : Option String) :
    (outcome integerResults formula table context calcId).map (·.1) =
      (outcome integerResults other table otherContext otherId).map (·.1) := by
  unfold outcome
  rw [h]
  cases evaluate other table with
  | error error => rfl
  | ok evaluation =>
      dsimp only
      cases evaluation.aggregate.display integerResults evaluation.value <;> rfl

theorem calculate_map_text (calcId : Option String) :
    ((sheet.calculate cell table calcId).map (·.1)).map Outcome.text =
      sheet.shown table cell := by
  unfold shown calculate
  cases sheet.store.get? cell with
  | none => rfl
  | some formula =>
      exact congrArg (Except.map Outcome.text) (outcome_map_fst_congr rfl _ _ _ calcId none)

/-- Quiet listeners hear everything to the end. -/
theorem notify_quiet (hquiet : sheet.IsQuiet) (cell : CellRef) (text : String) :
    (notify cell text sheet.listeners).2 = false := by
  -- The listeners are told one by one, so the rest of them is no longer that of the sheet.
  unfold IsQuiet at hquiet
  generalize sheet.listeners = listeners at hquiet
  induction listeners with
  | nil => rfl
  | cons listener listeners ih =>
      obtain ⟨hlistener, hrest⟩ := List.forall_mem_cons.mp hquiet
      simp [notify, hlistener, ih hrest]

/-- The step of a pass: a cell that shows nothing ends it, any other is passed by. -/
theorem passOver_cons (hquiet : sheet.IsQuiet) (receive : σ → Report → σ) (table : Table)
    (calcId : String) (cell : CellRef) (cells : List CellRef) (receiver : σ) :
    (∃ cause, sheet.shown table cell = .error cause ∧
      (sheet.passOver receive table calcId (cell :: cells) receiver).interruption =
        some cause) ∨
    (∃ text report, sheet.shown table cell = .ok text ∧
      (sheet.passOver receive table calcId (cell :: cells) receiver).interruption =
        (sheet.passOver receive table calcId cells (receive receiver report)).interruption ∧
      (sheet.passOver receive table calcId (cell :: cells) receiver).texts =
        (cell, text) ::
          (sheet.passOver receive table calcId cells (receive receiver report)).texts) := by
  have hshown : _ = sheet.shown table cell := calculate_map_text (some calcId)
  rw [passOver]
  cases hcalc : sheet.calculate cell table (some calcId) with
  | error cause =>
      rw [hcalc] at hshown
      exact .inl ⟨cause, hshown.symm, rfl⟩
  | ok result =>
      obtain ⟨outcome, report⟩ := result
      rw [hcalc] at hshown
      refine .inr ⟨outcome.text, report, hshown.symm, ?_⟩
      simp [notify_quiet hquiet cell outcome.text]

theorem passOver_eq_iff (hquiet : sheet.IsQuiet) (receive : σ → Report → σ) (calcId : String)
    (receiver : σ) :
    ((sheet.passOver receive table calcId cells receiver).interruption = none ∧
      (sheet.passOver receive table calcId cells receiver).texts = texts) ↔
      sheet.Shows table cells texts := by
  induction cells generalizing texts receiver with
  | nil => simp [passOver, Shows, eq_comm]
  | cons cell cells ih =>
      rcases passOver_cons hquiet receive table calcId cell cells receiver with
        ⟨cause, hshown, hend⟩ | ⟨text, report, hshown, hend, htexts⟩
      · simp [hend, Shows, List.forall₂_cons_left_iff, hshown]
      · rw [hend, htexts]
        constructor
        · rintro ⟨hnone, rfl⟩
          exact .cons ⟨rfl, hshown⟩ ((ih _).mp ⟨hnone, rfl⟩)
        · intro hshows
          obtain ⟨entry, rest, ⟨rfl, hentry⟩, hrest, rfl⟩ :=
            List.forall₂_cons_left_iff.mp hshows
          obtain ⟨hnone, hrest⟩ := (ih (receive receiver report)).mpr hrest
          obtain rfl : text = entry.2 := by
            rw [hshown] at hentry
            exact Except.ok.inj hentry
          exact ⟨hnone, by rw [hrest]⟩

/-- A recalculation of some cells answers with the texts that they show. -/
theorem answer_recalculate_iff (hquiet : sheet.IsQuiet) (receive : σ → Report → σ)
    (receiver : σ) :
    (Effect.ofPass (sheet.recalculate receive cells table receiver)).answer = .texts texts ↔
      sheet.Shows table cells texts := by
  rw [← passOver_eq_iff hquiet receive (calcIdOf (sheet.recalculations + 1))
    (receive receiver (startReport (calcIdOf (sheet.recalculations + 1)) cells.length))]
  unfold Effect.ofPass recalculate
  dsimp only
  split
  next hnone => simp [hnone]
  next cause hcause => simp [hcause]

theorem answer_recalculateAll_iff {session : Session} (hquiet : session.sheet.IsQuiet) :
    (session.perform (.recalculateAll table)).2.1 = .texts texts ↔
      session.sheet.Shows table session.sheet.store.cells texts := by
  rw [← answer_recalculate_iff hquiet (Session.reportAmid fun _ reporter => reporter)
    (0, session.reporter)]
  simp only [Session.perform, Session.performAmid, perform, recalculateAll]

theorem answer_recalculateDependents_iff {session : Session} (hquiet : session.sheet.IsQuiet)
    {place : Nat} {column : Column} (hcolumn : table.columns[place]? = some column) :
    (session.perform (.recalculateDependents place table)).2.1 = .texts texts ↔
      session.sheet.Shows table
        (session.sheet.dependents (Table.nameKey column.name)) texts := by
  rw [← answer_recalculate_iff hquiet (Session.reportAmid fun _ reporter => reporter)
    (0, session.reporter)]
  have hplace : ¬ (place : Int) < 0 := by omega
  simp only [Session.perform, Session.performAmid, perform, recalculateDependents, hplace, if_false,
    Int.toNat_natCast, hcolumn]

theorem Shows.map_fst (h : sheet.Shows table cells texts) : texts.map (·.1) = cells := by
  induction h with
  | nil => rfl
  | cons hentry _ ih => rw [List.map_cons, ih, hentry.1]

theorem Shows.lookup (h : sheet.Shows table cells texts) (cell : CellRef) :
    texts.lookup cell = if cell ∈ cells then (sheet.shown table cell).toOption else none := by
  induction h with
  | nil => rfl
  | @cons first entry cells texts hentry _ ih =>
      obtain ⟨rfl, hshown⟩ := hentry
      rw [List.lookup_cons]
      by_cases heq : cell = entry.1
      · subst heq
        simp [hshown, Except.toOption]
      · rw [beq_false_of_ne heq]
        simp [heq, ih]

theorem Shows.mem_iff (h : sheet.Shows table cells texts) {entry : CellRef × String} :
    entry ∈ texts ↔ entry.1 ∈ cells ∧ sheet.shown table entry.1 = .ok entry.2 := by
  induction h with
  | nil => simp
  | @cons cell first cells texts hfirst _ ih =>
      obtain ⟨rfl, hshown⟩ := hfirst
      rw [List.mem_cons, List.mem_cons, ih]
      constructor
      · rintro (rfl | ⟨hcell, htext⟩)
        · exact ⟨.inl rfl, hshown⟩
        · exact ⟨.inr hcell, htext⟩
      · rintro ⟨heq | hcell, htext⟩
        · rw [heq, hshown] at htext
          exact .inl (Prod.ext heq (Except.ok.inj htext).symm)
        · exact .inr ⟨hcell, htext⟩

theorem Shows.shown_eq (h : sheet.Shows table cells texts) (hcell : cell ∈ cells) :
    ∃ text, sheet.shown table cell = .ok text := by
  induction h with
  | nil => simp at hcell
  | cons hentry _ ih =>
      rcases List.mem_cons.mp hcell with rfl | hcell
      · exact ⟨_, hentry.2⟩
      · exact ih hcell

/-- Every cell shows a text, be it an error, if the columns can be counted. -/
theorem exists_shown (hcount : table.IsCountable) (cell : CellRef) :
    ∃ text, sheet.shown table cell = .ok text := by
  unfold shown calculate
  cases sheet.store.get? cell with
  | none => exact ⟨_, rfl⟩
  | some formula => exact exists_text_outcome hcount _ _ _ _

/-- Cells that all show a text have an answer. -/
theorem exists_shows (h : ∀ cell ∈ cells, ∃ text, sheet.shown table cell = .ok text) :
    ∃ texts, sheet.Shows table cells texts := by
  induction cells with
  | nil => exact ⟨[], .nil⟩
  | cons cell cells ih =>
      obtain ⟨⟨text, htext⟩, hrest⟩ := List.forall_mem_cons.mp h
      obtain ⟨texts, hshows⟩ := ih hrest
      exact ⟨(cell, text) :: texts, .cons ⟨rfl, htext⟩ hshows⟩

end Sheet

end ColumnFormula
