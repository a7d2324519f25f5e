import ColumnFormula.Proofs.Session.Formulas
import ColumnFormula.Proofs.Sheet.Notices

/-!
# Recalculations in a run

What a recalculation selects can be told from the formulas as a map, and what it tells the
listeners from these cells, their texts and the listeners. So it does not matter in which order
the formulas got into the map. A recalculation changes neither formulas nor listeners, however
it ends, and therefore nothing that is seen later.
-/

namespace ColumnFormula

/-! ## What an action selects -/

namespace Action

/-- The table of a recalculation. -/
def table? : Action → Option Table
  | .recalculateDependents _ table | .recalculateAll table => some table
  | _ => none

/-- Whether an action recalculates a cell, by the formulas that cells have: it has a formula,
and this is about the column in question if only some formulas are recalculated. -/
def Selects (formulas : CellRef → Option String) (cell : CellRef) : Action → Prop
  | .recalculateAll _ => (formulas cell).isSome
  | .recalculateDependents place table =>
    ∃ column formula parsed, 0 ≤ place ∧ table.columns[place.toNat]? = some column ∧
      formulas cell = some formula ∧ Formula.parse formula = .ok parsed ∧
      Table.nameKey parsed.argument = Table.nameKey column.name
  | _ => False

/-- The listener that an action adds. -/
def listener? : Action → Option Listener
  | .subscribe listener => some listener
  | _ => none

end Action

namespace Sheet

variable {σ : Type} {sheet : Sheet} {table : Table} {cell : CellRef} {action : Action}
  {texts : List (CellRef × String)}

/-- The cells that an action recalculates, in order. -/
def selected (sheet : Sheet) (action : Action) : List CellRef :=
  (sheet.selection? action).elim [] (·.1)

theorem pairwise_selected (sheet : Sheet) (action : Action) :
    (sheet.selected action).Pairwise (· < ·) := by
  unfold selected
  cases hselection : sheet.selection? action with
  | none => exact .nil
  | some selection => exact pairwise_of_selection? hselection

/-- In whatever order the cells are found that an action recalculates, sorting gives their order. -/
theorem mergeSort_selected {cells : List CellRef} (h : cells.Perm (sheet.selected action)) :
    cells.mergeSort (fun a b => decide (¬ b < a)) = sheet.selected action :=
  FormulaStore.mergeSort_of_perm id (sheet.pairwise_selected action) h

theorem mem_cells_iff : cell ∈ sheet.store.cells ↔ (sheet.store.get? cell).isSome := by
  rw [FormulaStore.cells, List.mem_map, Option.isSome_iff_exists]
  constructor
  · rintro ⟨⟨_, formula⟩, hentry, rfl⟩
    exact ⟨formula, FormulaStore.mem_entries_iff.mp hentry⟩
  · rintro ⟨formula, hformula⟩
    exact ⟨(cell, formula), FormulaStore.mem_entries_iff.mpr hformula, rfl⟩

theorem mem_dependents_iff {key : List Char} :
    cell ∈ sheet.dependents key ↔ ∃ formula parsed, sheet.store.get? cell = some formula ∧
      Formula.parse formula = .ok parsed ∧ Table.nameKey parsed.argument = key := by
  rw [dependents, List.mem_map]
  constructor
  · rintro ⟨⟨_, formula⟩, hentry, rfl⟩
    obtain ⟨hentry, hdepends⟩ := List.mem_filter.mp hentry
    obtain ⟨parsed, hparsed⟩ := dependsOn_iff.mp hdepends
    exact ⟨formula, parsed, FormulaStore.mem_entries_iff.mp hentry, hparsed⟩
  · rintro ⟨formula, parsed, hformula, hparsed⟩
    exact ⟨(cell, formula), List.mem_filter.mpr ⟨FormulaStore.mem_entries_iff.mpr hformula,
      dependsOn_iff.mpr ⟨parsed, hparsed⟩⟩, rfl⟩

/-- The selected cells are those that the map tells. -/
theorem mem_selected_iff : cell ∈ sheet.selected action ↔ action.Selects sheet.store.get? cell := by
  unfold selected Action.Selects
  cases action with
  | recalculateAll table => exact mem_cells_iff
  | recalculateDependents place table =>
      rw [selection?]
      split
      next hplace =>
        refine ⟨fun hmem => absurd hmem List.not_mem_nil, ?_⟩
        rintro ⟨_, _, _, hnot, -⟩
        omega
      next hplace =>
        cases hcolumn : table.columns[place.toNat]? with
        | none => simp [hcolumn]
        | some column =>
            have hnonneg : 0 ≤ place := by omega
            simp [mem_dependents_iff, hcolumn, hnonneg]
  | _ => exact List.mem_nil_iff cell

theorem table?_of_selection? {cells : List CellRef}
    (h : sheet.selection? action = some (cells, table)) : action.table? = some table := by
  cases action with
  | recalculateAll other => exact congrArg some (Prod.mk.inj (Option.some.inj h)).2
  | recalculateDependents place other =>
      rw [selection?] at h
      split at h
      · cases h
      · obtain ⟨column, -, hselected⟩ := Option.map_eq_some_iff.mp h
        exact congrArg some (Prod.mk.inj hselected).2
  | _ => cases h

/-- A column that the table does not have makes nothing to recalculate. -/
theorem perform_of_selection?_eq_none (haction : action.table? = some table)
    (h : sheet.selection? action = none) (receive : σ → Report → σ) (receiver : σ) :
    sheet.perform receive action receiver = ⟨sheet, .texts [], [], receiver⟩ := by
  cases action with
  | recalculateAll other => cases h
  | recalculateDependents place other =>
      rw [selection?] at h
      rw [perform]
      unfold recalculateDependents
      split at h
      next hplace => rw [if_pos hplace, Effect.ofPass]
      next hplace => rw [if_neg hplace, Option.map_eq_none_iff.mp h, Effect.ofPass]
  | _ => cases haction

/-- What a recalculation tells the listeners, and its answer. -/
theorem perform_of_shows (haction : action.table? = some table)
    (h : sheet.Shows table (sheet.selected action) texts) (receive : σ → Report → σ)
    (receiver : σ) :
    let effect := sheet.perform receive action receiver
    let calls := calls sheet.listeners texts
    effect.notices = (made calls).map Call.notice ∧
      effect.answer =
        if calls.any Call.isObjected then .interrupted .listener else .texts texts := by
  unfold selected at h
  cases hselection : sheet.selection? action with
  | none =>
      rw [hselection] at h
      obtain rfl := List.forall₂_nil_left_iff.mp h
      rw [perform_of_selection?_eq_none haction hselection]
      exact ⟨rfl, rfl⟩
  | some selection =>
      obtain ⟨cells, other⟩ := selection
      obtain rfl : table = other :=
        Option.some.inj (haction.symm.trans (table?_of_selection? hselection))
      rw [hselection] at h
      rw [perform_of_selection? hselection]
      exact recalculate_of_shows h receive receiver

/-- A recalculation leaves the sheet as it is, but for the number of recalculations. -/
theorem uncounted_perform (haction : action.table? = some table) (receive : σ → Report → σ)
    (receiver : σ) : (sheet.perform receive action receiver).sheet.uncounted = sheet.uncounted := by
  cases hselection : sheet.selection? action with
  | none => rw [perform_of_selection?_eq_none haction hselection]
  | some selection =>
      rw [perform_of_selection? hselection]
      rfl

/-- An action adds at most one listener, behind those that are there. -/
theorem perform_listeners (sheet : Sheet) (receive : σ → Report → σ) (action : Action)
    (receiver : σ) :
    let after := (sheet.perform receive action receiver).sheet
    after.integerResults = sheet.integerResults ∧
      after.listeners = sheet.listeners ++ action.listener?.toList := by
  have hnone : sheet.listeners = sheet.listeners ++ Option.toList none := by
    rw [Option.toList_none, List.append_nil]
  have hcalculation : ∀ calculation : Except Interruption (Outcome × Report),
      let after := (Effect.ofCalculation receive sheet calculation receiver).sheet
      after.integerResults = sheet.integerResults ∧
        after.listeners = sheet.listeners ++ Option.toList none := by
    intro calculation
    rw [sheet_ofCalculation]
    exact ⟨rfl, hnone⟩
  cases action with
  | set cell text =>
      dsimp only
      rw [perform]
      rcases set_cases sheet cell text with ⟨-, hset⟩ | ⟨-, hset⟩ | ⟨-, hset⟩
      · rw [hset]
        dsimp only
        rw [sheet_ofChange]
        exact ⟨rfl, hnone⟩
      · rw [hset]
        dsimp only
        rw [sheet_ofChange]
        exact ⟨rfl, hnone⟩
      · rw [hset]
        exact ⟨rfl, hnone⟩
  | clear cell =>
      dsimp only
      rw [perform, sheet_ofChange]
      exact ⟨rfl, hnone⟩
  | clearAll => exact ⟨rfl, hnone⟩
  | subscribe listener => exact ⟨rfl, rfl⟩
  | calculate cell table calcId => exact hcalculation _
  | calculateFormula formula table => exact hcalculation _
  | recalculateDependents place table =>
      have huncounted : (sheet.perform receive (.recalculateDependents place table)
          receiver).sheet.uncounted = sheet.uncounted := uncounted_perform rfl receive receiver
      obtain ⟨hresults, -, hlisteners⟩ := uncounted_eq_iff.mp huncounted
      exact ⟨hresults, hlisteners.trans hnone⟩
  | recalculateAll table => exact ⟨rfl, hnone⟩

end Sheet

/-! ## Runs -/

namespace Session

/-- The formulas of a session after some actions, as a map. -/
def formulasFrom (session : Session) (actions : List Action) : CellRef → Option String :=
  actions.foldl (fun formulas action => action.rebind formulas) session.sheet.store.get?

/-- The listeners of a session after some actions, in the order in which they were added. -/
def listenersFrom (session : Session) (actions : List Action) : List Listener :=
  session.sheet.listeners ++ actions.filterMap Action.listener?

/-- The run: listeners are only ever added, each behind the others. -/
theorem after_listeners (session : Session) (steps : List Step) :
    let current := session.after steps
    current.sheet.integerResults = session.sheet.integerResults ∧
      current.sheet.listeners = session.listenersFrom (actions steps) := by
  unfold after listenersFrom
  induction steps generalizing session with
  | nil => exact ⟨rfl, (List.append_nil _).symm⟩
  | cons step steps ih =>
      rw [List.foldl_cons]
      cases step with
      | logging change => exact ih { session with reporter := change session.reporter }
      | act action meanwhile =>
          obtain ⟨hresults, hlisteners⟩ := session.sheet.perform_listeners
            (reportAmid meanwhile) action (0, session.reporter)
          obtain ⟨hresults', hlisteners'⟩ := ih (session.performAmid meanwhile action).1
          refine ⟨hresults'.trans hresults, hlisteners'.trans ?_⟩
          change (session.performAmid meanwhile action).1.sheet.listeners = _ at hlisteners
          rw [hlisteners, actions, List.append_assoc]
          cases haction : action.listener? <;> simp [haction]

/-- Runs that lead to the same map and the same listeners lead to the same sheet. -/
theorem uncounted_after_eq {session other : Session} {steps others : List Step}
    (hresults : session.sheet.integerResults = other.sheet.integerResults)
    (hformulas : session.formulasFrom (actions steps) = other.formulasFrom (actions others))
    (hlisteners : session.listenersFrom (actions steps) = other.listenersFrom (actions others)) :
    (session.after steps).sheet.uncounted = (other.after others).sheet.uncounted := by
  obtain ⟨hresults₁, hlisteners₁⟩ := after_listeners session steps
  obtain ⟨hresults₂, hlisteners₂⟩ := after_listeners other others
  refine Sheet.uncounted_eq_iff.mpr ⟨?_, ?_, ?_⟩
  · rw [hresults₁, hresults₂, hresults]
  · apply FormulaStore.eq_of_get?_eq
    rw [get?_after, get?_after]
    exact hformulas
  · rw [hlisteners₁, hlisteners₂, hlisteners]

/-- What is answered and told depends on a sheet as it is, uncounted. -/
theorem performAmid_snd_eq {session other : Session}
    (h : session.sheet.uncounted = other.sheet.uncounted) (action : Action)
    (meanwhile otherMeanwhile : Nat → Reporter → Reporter) :
    (session.performAmid meanwhile action).2 = (other.performAmid otherMeanwhile action).2 := by
  have hseen := Sheet.seen_perform_eq h (rfl : action.withoutId = action.withoutId)
    (reportAmid meanwhile) (reportAmid otherMeanwhile) (0, session.reporter) (0, other.reporter)
  simp only [Effect.seen, Effect.mk.injEq] at hseen
  exact Prod.ext hseen.2.1 hseen.2.2.1

/-- Recalculations of a run. The calls to listeners are those of the selected cells with the
texts that they show, cell by cell in order and for each cell in the order in which the
listeners were added. If none objects, all of them are made and the answer lists these texts;
otherwise the calls up to the first objection are made, and it is the answer. However it ends,
formulas and listeners stay, and whatever is done later is seen as if there had been no
recalculation. Any other run that leads to the same map of formulas and the same listeners has
the same answer and the same calls. -/
theorem performAmid_recalculation (session : Session) (steps : List Step) {action : Action}
    {table : Table} (haction : action.table? = some table) (hcount : table.IsCountable)
    (meanwhile : Nat → Reporter → Reporter) :
    let current := session.after steps
    let formulas := session.formulasFrom (actions steps)
    let listeners := session.listenersFrom (actions steps)
    let result := current.performAmid meanwhile action
    (∃ texts : List (CellRef × String),
      (texts.Pairwise (·.1 < ·.1) ∧
        (∀ cell, cell ∈ texts.map (·.1) ↔ action.Selects formulas cell) ∧
        ∀ entry ∈ texts, current.sheet.shown table entry.1 = .ok entry.2) ∧
      ((∀ call ∈ calls listeners texts, call.isObjected = false) →
        result.2 = (.texts texts, (calls listeners texts).map Call.notice)) ∧
      ∀ before call rest, calls listeners texts = before ++ call :: rest →
        (∀ earlier ∈ before, earlier.isObjected = false) → call.isObjected = true →
        result.2 = (.interrupted .listener, (before ++ [call]).map Call.notice)) ∧
    (result.1.sheet.store = current.sheet.store ∧
      result.1.sheet.listeners = current.sheet.listeners ∧
      ∀ later, result.1.run later = current.run later) ∧
    ∀ (other : Session) (others : List Step) (otherMeanwhile : Nat → Reporter → Reporter),
      session.sheet.integerResults = other.sheet.integerResults →
      formulas = other.formulasFrom (actions others) →
      listeners = other.listenersFrom (actions others) →
      ((other.after others).performAmid otherMeanwhile action).2 = result.2 := by
  intro current formulas listeners result
  have hformulas : current.sheet.store.get? = formulas := get?_after session steps
  have hlisteners : current.sheet.listeners = listeners := (after_listeners session steps).2
  obtain ⟨texts, hshows⟩ : ∃ texts,
      current.sheet.Shows table (current.sheet.selected action) texts :=
    Sheet.exists_shows fun cell _ => Sheet.exists_shown hcount cell
  obtain ⟨hnotices, hanswer⟩ := Sheet.perform_of_shows haction hshows (reportAmid meanwhile)
    (0, current.reporter)
  rw [hlisteners] at hnotices hanswer
  have huncounted : result.1.sheet.uncounted = current.sheet.uncounted :=
    Sheet.uncounted_perform haction (reportAmid meanwhile) (0, current.reporter)
  refine ⟨⟨texts, ⟨?_, ?_, ?_⟩, ?_, ?_⟩, ⟨?_, ?_, ?_⟩, ?_⟩
  · have hascending := current.sheet.pairwise_selected action
    rw [← hshows.map_fst] at hascending
    exact List.pairwise_map.mp hascending
  · intro cell
    rw [hshows.map_fst, ← hformulas]
    exact Sheet.mem_selected_iff
  · exact fun entry hentry => (hshows.mem_iff.mp hentry).2
  · intro hnone
    rw [made_of_forall hnone] at hnotices
    rw [if_neg (by simpa using hnone)] at hanswer
    exact Prod.ext hanswer hnotices
  · intro before call rest hcalls hbefore hcall
    rw [hcalls, made_append_cons hbefore hcall] at hnotices
    rw [hcalls, if_pos (by simp [hcall])] at hanswer
    exact Prod.ext hanswer hnotices
  · exact (Sheet.uncounted_eq_iff.mp huncounted).2.1
  · exact (Sheet.uncounted_eq_iff.mp huncounted).2.2
  · intro later
    exact (run_eq_respond huncounted rfl).trans (run_eq_respond rfl rfl).symm
  · intro other others otherMeanwhile hresults hmap hlist
    exact (performAmid_snd_eq (uncounted_after_eq hresults hmap hlist) action meanwhile
      otherMeanwhile).symm

/-- A listener is added twice, and another one in between objects to the second of two cells;
the second run sets the formulas in another order and takes one away again. -/
theorem performAmid_recalculation_objection :
    let session : Session := ⟨.start true, Reporter.start .empty "" .zero⟩
    let table : Table := ⟨[⟨"a", [some "1", some "2"]⟩]⟩
    let still : Nat → Reporter → Reporter := fun _ reporter => reporter
    let quiet : Listener := ⟨"quiet", fun _ => false⟩
    let strict : Listener := ⟨"strict", fun cell => cell.row == 1⟩
    let subscribe : List Step := [.act (.subscribe quiet) still, .act (.subscribe strict) still,
      .act (.subscribe quiet) still]
    let steps : List Step := subscribe ++ [.act (.set ⟨1, 0⟩ (some "=SUM(a)")) still,
      .act (.set ⟨-2, 3⟩ (some "=COUNT(A)")) still]
    let others : List Step := [.act (.set ⟨-2, 3⟩ (some " =COUNT(A)")) still,
      .act (.set ⟨7, 7⟩ (some "=MAX(a)")) still, .act (.set ⟨1, 0⟩ (some "=MAX(a)")) still,
      .act (.clear ⟨7, 7⟩) still, .act (.set ⟨1, 0⟩ (some "=SUM(a)")) still] ++ subscribe
    let result := (session.after steps).performAmid still (.recalculateAll table)
    (Action.table? (.recalculateAll table) = some table ∧ table.IsCountable) ∧
      result.2 = (.interrupted .listener, [⟨"quiet", ⟨-2, 3⟩, "2"⟩, ⟨"strict", ⟨-2, 3⟩, "2"⟩,
        ⟨"quiet", ⟨-2, 3⟩, "2"⟩, ⟨"quiet", ⟨1, 0⟩, "3"⟩, ⟨"strict", ⟨1, 0⟩, "3"⟩]) ∧
      (∀ later, result.1.run later = (session.after steps).run later) ∧
      ((session.after others).performAmid still (.recalculateAll table)).2 = result.2 := by
  intro session table still quiet strict subscribe steps others result
  have hcount : table.IsCountable := by
    unfold Table.IsCountable
    decide
  obtain ⟨-, ⟨-, -, hlater⟩, hsame⟩ :=
    performAmid_recalculation session steps (rfl : Action.table? (.recalculateAll table) = _)
      hcount still
  have hstore : (session.after steps).sheet.store = (session.after others).sheet.store := by rfl
  have hformulas : session.formulasFrom (actions steps) = session.formulasFrom (actions others) :=
    (get?_after session steps).symm.trans
      ((congrArg FormulaStore.get? hstore).trans (get?_after session others))
  exact ⟨⟨rfl, hcount⟩, by decide +kernel, hlater, hsame session others still rfl hformulas rfl⟩

end Session

end ColumnFormula
