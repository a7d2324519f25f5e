import ColumnFormula.Proofs.Session.Independence

/-!
# What an action reports

The reports of an action do not depend on who receives them, and whoever does receives them one
by one, in order. A recalculation that nobody objects to reports its beginning, one report for
each cell, and its end with the number of cells that failed.
-/

namespace ColumnFormula.Sheet

variable {σ : Type} {sheet : Sheet} {table : Table} {calcId : String} {cells : List CellRef}

/-! ## Receivers -/

/-- Put a report behind those received before. -/
def collect (reports : List Report) (report : Report) : List Report :=
  reports ++ [report]

/-- The reports of an action, in order. -/
def reports (sheet : Sheet) (action : Action) : List Report :=
  (sheet.perform collect action []).receiver

theorem foldl_collect (new reports : List Report) : new.foldl collect reports = reports ++ new := by
  induction new generalizing reports with
  | nil => exact (List.append_nil reports).symm
  | cons report new ih =>
      rw [List.foldl_cons, ih, collect, List.append_assoc, List.singleton_append]

section Receivers

variable (receive : σ → Report → σ) (receiver : σ)

theorem receive_foldl (reports : List Report) (report : Report) :
    receive (reports.foldl receive receiver) report =
      (collect reports report).foldl receive receiver := by
  rw [collect, List.foldl_concat]

/-- A pass hands over what it would put behind any other reports. -/
theorem receiver_passOver (reports : List Report) :
    (sheet.passOver receive table calcId cells (reports.foldl receive receiver)).receiver =
      (sheet.passOver collect table calcId cells reports).receiver.foldl receive receiver := by
  induction cells generalizing reports with
  | nil => rfl
  | cons cell cells ih =>
      rw [passOver, passOver]
      cases sheet.calculate cell table (some calcId) with
      | error cause => rfl
      | ok result =>
          dsimp only
          rw [receive_foldl receive]
          split
          · rfl
          · exact ih (collect reports result.2)

theorem receiver_recalculate (reports : List Report) :
    (sheet.recalculate receive cells table (reports.foldl receive receiver)).2.receiver =
      (sheet.recalculate collect cells table reports).2.receiver.foldl receive receiver := by
  have hseen := seen_passOver (rfl : sheet.uncounted = sheet.uncounted) receive collect table
    (calcIdOf (sheet.recalculations + 1)) (calcIdOf (sheet.recalculations + 1)) cells
    ((collect reports (startReport (calcIdOf (sheet.recalculations + 1)) cells.length)).foldl
      receive receiver)
    (collect reports (startReport (calcIdOf (sheet.recalculations + 1)) cells.length))
  simp only [Pass.seen, Pass.mk.injEq] at hseen
  obtain ⟨htexts, hfailed, -, hinterruption, -⟩ := hseen
  unfold recalculate
  dsimp only
  rw [receive_foldl receive, htexts, hfailed, hinterruption, receiver_passOver]
  split
  · exact receive_foldl receive receiver _ _
  · rfl

theorem receiver_perform_append (action : Action) (reports : List Report) :
    (sheet.perform receive action (reports.foldl receive receiver)).receiver =
      (sheet.perform collect action reports).receiver.foldl receive receiver := by
  have hchange : ∀ change : Sheet × Except Interruption (List Report),
      (Effect.ofChange receive change (reports.foldl receive receiver)).receiver =
        (Effect.ofChange collect change reports).receiver.foldl receive receiver := by
    intro change
    unfold Effect.ofChange
    split
    next new _ =>
      dsimp only
      rw [foldl_collect, List.foldl_append]
    next => rfl
  have hcalculation : ∀ calculation : Except Interruption (Outcome × Report),
      (Effect.ofCalculation receive sheet calculation (reports.foldl receive receiver)).receiver =
        (Effect.ofCalculation collect sheet calculation reports).receiver.foldl receive
          receiver := by
    intro calculation
    cases calculation with
    | error cause => rfl
    | ok result => exact receive_foldl receive receiver reports result.2
  cases action with
  | set cell text =>
      rw [perform, perform]
      cases sheet.set cell text with
      | error fault => rfl
      | ok change => exact hchange change
  | clear cell => exact hchange _
  | clearAll => exact hchange _
  | subscribe listener => exact hchange _
  | calculate cell table calcId => exact hcalculation _
  | calculateFormula formula table => exact hcalculation _
  | recalculateDependents place table =>
      rw [perform, perform]
      unfold recalculateDependents
      split
      · rfl
      · exact receiver_recalculate receive receiver reports
  | recalculateAll table => exact receiver_recalculate receive receiver reports

/-- An action hands over its reports, one by one. -/
theorem receiver_perform (action : Action) :
    (sheet.perform receive action receiver).receiver =
      (sheet.reports action).foldl receive receiver :=
  receiver_perform_append receive receiver action []

end Receivers

/-! ## Recalculations to their end -/

/-- The cells that an action recalculates, and the table that it reads; none if it recalculates
nothing or is about a column that the table does not have. -/
def selection? (sheet : Sheet) : Action → Option (List CellRef × Table)
  | .recalculateAll table => some (sheet.store.cells, table)
  | .recalculateDependents place table =>
    if place < 0 then none
    else table.columns[place.toNat]?.map fun column =>
      (sheet.dependents (Table.nameKey column.name), table)
  | _ => none

theorem perform_of_selection? {action : Action} (h : sheet.selection? action = some (cells, table))
    (receive : σ → Report → σ) (receiver : σ) :
    sheet.perform receive action receiver =
      .ofPass (sheet.recalculate receive cells table receiver) := by
  cases action with
  | recalculateAll table =>
      obtain ⟨rfl, rfl⟩ := Prod.mk.inj (Option.some.inj h)
      rfl
  | recalculateDependents place table =>
      rw [selection?] at h
      rw [perform]
      unfold recalculateDependents
      split at h
      · cases h
      next hplace =>
        obtain ⟨column, hcolumn, hselected⟩ := Option.map_eq_some_iff.mp h
        obtain ⟨rfl, rfl⟩ := Prod.mk.inj hselected
        rw [if_neg hplace, hcolumn]
  | _ => cases h

/-- Selected cells ascend. -/
theorem pairwise_of_selection? {action : Action}
    (h : sheet.selection? action = some (cells, table)) : cells.Pairwise (· < ·) := by
  cases action with
  | recalculateAll table =>
      obtain ⟨rfl, rfl⟩ := Prod.mk.inj (Option.some.inj h)
      exact List.pairwise_map.mpr sheet.store.ascending
  | recalculateDependents place table =>
      rw [selection?] at h
      split at h
      · cases h
      · obtain ⟨column, -, hselected⟩ := Option.map_eq_some_iff.mp h
        obtain ⟨rfl, rfl⟩ := Prod.mk.inj hselected
        exact List.pairwise_map.mpr (sheet.store.ascending.filter _)
  | _ => cases h

/-- What the calculations of some cells come to, one by one. -/
def Results (sheet : Sheet) (table : Table) (calcId : String) :
    List CellRef → List (Outcome × Report) → Prop :=
  List.Forall₂ fun cell result => sheet.calculate cell table (some calcId) = .ok result

theorem exists_results (hcount : table.IsCountable) (calcId : String) (cells : List CellRef) :
    ∃ results, sheet.Results table calcId cells results := by
  induction cells with
  | nil => exact ⟨[], .nil⟩
  | cons cell cells ih =>
      obtain ⟨results, hresults⟩ := ih
      obtain ⟨text, htext⟩ : ∃ text, sheet.shown table cell = .ok text := exists_shown hcount cell
      cases hcalc : sheet.calculate cell table (some calcId) with
      | error cause =>
          rw [← calculate_map_text (some calcId), hcalc] at htext
          cases htext
      | ok result => exact ⟨result :: results, .cons hcalc hresults⟩

/-- A pass that nobody objects to goes through all results. -/
theorem passOver_of_results {results : List (Outcome × Report)} (hquiet : sheet.IsQuiet)
    (h : sheet.Results table calcId cells results) (receive : σ → Report → σ) (receiver : σ) :
    let pass := sheet.passOver receive table calcId cells receiver
    pass.interruption = none ∧ pass.texts = cells.zip (results.map (·.1.text)) ∧
      pass.failed = results.countP (!·.1.isOk) ∧
      pass.receiver = (results.map (·.2)).foldl receive receiver := by
  induction h generalizing receiver with
  | nil => exact ⟨rfl, rfl, rfl, rfl⟩
  | @cons cell result cells results hresult _ ih =>
      obtain ⟨hinterruption, htexts, hfailed, hreceiver⟩ := ih (receive receiver result.2)
      dsimp only
      rw [passOver, hresult]
      dsimp only
      rw [notify_quiet hquiet, if_neg Bool.false_ne_true]
      refine ⟨hinterruption, ?_, ?_, hreceiver⟩
      · rw [htexts, List.map_cons, List.zip_cons_cons]
      · rw [hfailed, List.countP_cons]
        cases result.1.isOk <;> simp [Nat.add_comm]

/-- The answer and the reports of a recalculation that nobody objects to. -/
theorem recalculate_of_results {results : List (Outcome × Report)} {action : Action}
    (hquiet : sheet.IsQuiet) (hselect : sheet.selection? action = some (cells, table))
    (h : sheet.Results table (calcIdOf (sheet.recalculations + 1)) cells results) :
    (∀ (receive : σ → Report → σ) (receiver : σ),
      (sheet.perform receive action receiver).answer =
        .texts (cells.zip (results.map (·.1.text)))) ∧
    sheet.reports action =
      startReport (calcIdOf (sheet.recalculations + 1)) cells.length ::
        results.map (·.2) ++
        [endReport (calcIdOf (sheet.recalculations + 1)) cells.length
          (results.countP (!·.1.isOk))] := by
  have hlength : (cells.zip (results.map (·.1.text))).length = cells.length := by
    rw [List.length_zip, List.length_map, ← h.length_eq, Nat.min_self]
  constructor
  · intro receive receiver
    obtain ⟨hinterruption, htexts, -⟩ := passOver_of_results hquiet h receive
      (receive receiver (startReport (calcIdOf (sheet.recalculations + 1)) cells.length))
    rw [perform_of_selection? hselect, Effect.ofPass]
    unfold recalculate
    dsimp only
    rw [hinterruption, htexts]
  · obtain ⟨hinterruption, htexts, hfailed, hreceiver⟩ := passOver_of_results hquiet h collect
      (collect [] (startReport (calcIdOf (sheet.recalculations + 1)) cells.length))
    rw [reports, perform_of_selection? hselect, Effect.ofPass]
    unfold recalculate
    dsimp only
    rw [hinterruption, htexts, hfailed, hreceiver, hlength, foldl_collect]
    rfl

/-! ## One report -/

/-- Whether a report is that of a calculation, or of the beginning or the end of several. -/
inductive IsOfCalculation (sheet : Sheet) : Report → Prop
  | cell {cell : CellRef} {table : Table} {calcId : Option String} {outcome : Outcome}
      {report : Report} : sheet.calculate cell table calcId = .ok (outcome, report) →
        IsOfCalculation sheet report
  | formula {formula : RawText} {table : Table} {outcome : Outcome} {report : Report} :
      sheet.calculateFormula formula table = .ok (outcome, report) →
        IsOfCalculation sheet report
  | start (calcId : String) (cells : Nat) : IsOfCalculation sheet (startReport calcId cells)
  | finish (calcId : String) (cells failed : Nat) :
      IsOfCalculation sheet (endReport calcId cells failed)

theorem forall_mem_collect {P : Report → Prop} {reports : List Report} {last : Report}
    (hreports : ∀ report ∈ reports, P report) (hlast : P last) :
    ∀ report ∈ collect reports last, P report := by
  rw [collect, List.forall_mem_append]
  exact ⟨hreports, List.forall_mem_singleton.mpr hlast⟩

theorem isOfCalculation_passOver {reports : List Report}
    (h : ∀ report ∈ reports, sheet.IsOfCalculation report) :
    ∀ report ∈ (sheet.passOver collect table calcId cells reports).receiver,
      sheet.IsOfCalculation report := by
  induction cells generalizing reports with
  | nil => exact h
  | cons cell cells ih =>
      rw [passOver]
      cases hcalc : sheet.calculate cell table (some calcId) with
      | error cause => exact h
      | ok result =>
          have hmore := forall_mem_collect h (IsOfCalculation.cell hcalc)
          dsimp only
          split
          · exact hmore
          · exact ih hmore

theorem isOfCalculation_recalculate :
    ∀ report ∈ (sheet.recalculate collect cells table []).2.receiver,
      sheet.IsOfCalculation report := by
  have hstart : ∀ report ∈
      collect [] (startReport (calcIdOf (sheet.recalculations + 1)) cells.length),
      sheet.IsOfCalculation report :=
    forall_mem_collect (List.forall_mem_nil _) (.start _ _)
  have hpass : ∀ report ∈ (sheet.passOver collect table (calcIdOf (sheet.recalculations + 1)) cells
      (collect [] (startReport (calcIdOf (sheet.recalculations + 1)) cells.length))).receiver,
      sheet.IsOfCalculation report :=
    isOfCalculation_passOver hstart
  unfold recalculate
  dsimp only
  split
  · exact forall_mem_collect hpass (.finish _ _ _)
  · exact hpass

/-- A change whose message cannot be written is not reported. -/
theorem receiver_ofChange (change : Sheet × Except Interruption (List Report)) :
    (Effect.ofChange collect change []).receiver = change.2.toOption.getD [] := by
  unfold Effect.ofChange
  split
  next reports hreports =>
    rw [hreports]
    exact foldl_collect reports []
  next cause hcause =>
    rw [hcause]
    rfl

theorem reports_set (cell : CellRef) (text : Option String) :
    sheet.reports (.set cell text) =
      match sheet.set cell text with
      | .ok change => change.2.toOption.getD []
      | .error _ => [] := by
  rw [reports, perform]
  cases sheet.set cell text with
  | error fault => rfl
  | ok change => exact receiver_ofChange change

theorem reports_clear (cell : CellRef) :
    sheet.reports (.clear cell) = (sheet.clear cell).2.toOption.getD [] :=
  receiver_ofChange _

/-- Apart from those of a cell that gets or loses its formula, all reports are about
calculations. -/
theorem isOfCalculation_of_mem_reports {action : Action}
    (hset : ∀ cell text, action ≠ .set cell text) (hclear : ∀ cell, action ≠ .clear cell) :
    ∀ report ∈ sheet.reports action, sheet.IsOfCalculation report := by
  have hcalculation : ∀ calculation : Except Interruption (Outcome × Report),
      (∀ outcome report, calculation = .ok (outcome, report) → sheet.IsOfCalculation report) →
      ∀ report ∈ (Effect.ofCalculation collect sheet calculation []).receiver,
        sheet.IsOfCalculation report := by
    intro calculation h
    cases calculation with
    | error cause => exact List.forall_mem_nil _
    | ok result => exact forall_mem_collect (List.forall_mem_nil _) (h result.1 result.2 rfl)
  rw [reports]
  cases action with
  | set cell text => exact absurd rfl (hset cell text)
  | clear cell => exact absurd rfl (hclear cell)
  | clearAll => exact List.forall_mem_nil _
  | subscribe listener => exact List.forall_mem_nil _
  | calculate cell table calcId => exact hcalculation _ fun outcome report => .cell
  | calculateFormula formula table => exact hcalculation _ fun outcome report => .formula
  | recalculateDependents place table =>
      rw [perform]
      unfold recalculateDependents
      split
      · exact List.forall_mem_nil _
      · exact isOfCalculation_recalculate
  | recalculateAll table => exact isOfCalculation_recalculate

end ColumnFormula.Sheet
