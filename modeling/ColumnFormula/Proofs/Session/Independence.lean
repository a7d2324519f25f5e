import ColumnFormula.Proofs.Sheet.Passes

/-!
# Calculation does not depend on logging

A run mixes actions on a sheet with whatever may happen to logging before, between and during
them. What a caller sees of the actions is what the sheet alone would answer, so it is the
same for all runs of the same actions; the ids under which reports are logged do not matter
either.
-/

namespace ColumnFormula

/-! ## What does not count -/

/-- The action under no calculation id. -/
def Action.withoutId : Action → Action
  | .calculate cell table _ => .calculate cell table none
  | action => action

namespace Sheet

/-- The sheet as if it had never recalculated anything. -/
def uncounted (sheet : Sheet) : Sheet :=
  { sheet with recalculations := 0 }

/-- What is seen of a recalculation by those who do not see its reports. -/
def Pass.seen {σ : Type} (pass : Pass σ) : Pass Unit :=
  ⟨pass.texts, pass.failed, pass.notices, pass.interruption, ()⟩

end Sheet

/-- What is seen of an effect by those who do not see its reports. -/
def Effect.seen {σ : Type} (effect : Effect σ) : Effect Unit :=
  ⟨effect.sheet.uncounted, effect.answer, effect.notices, ()⟩

/-! ## Runs -/

/-- What a caller sees of an action: its answer, what the listeners were told, and the
formulas afterwards. -/
structure Response where
  answer : Answer
  notices : List Notice
  formulas : FormulaStore
  deriving DecidableEq

namespace Session

/-- A step of a run. -/
inductive Step where
  /-- An action, with what happens to logging while it is performed. -/
  | act (action : Action) (meanwhile : Nat → Reporter → Reporter)
  /-- Something that happens to logging: a log is attached or taken away, the clock is set, a
  file is blocked or extended by someone else. -/
  | logging (change : Reporter → Reporter)

/-- The actions of some steps. -/
def actions : List Step → List Action
  | [] => []
  | .act action _ :: steps => action :: actions steps
  | .logging _ :: steps => actions steps

/-- The responses to the actions of a run, in order. -/
def run : Session → List Step → List Response
  | _, [] => []
  | session, .act action meanwhile :: steps =>
    let (after, answer, notices) := session.performAmid meanwhile action
    ⟨answer, notices, after.sheet.store⟩ :: run after steps
  | session, .logging change :: steps =>
    run { session with reporter := change session.reporter } steps

end Session

/-- The responses of a sheet whose reports nobody receives. -/
def Sheet.respond : Sheet → List Action → List Response
  | _, [] => []
  | sheet, action :: actions =>
    let effect := sheet.perform (fun _ _ => ()) action ()
    ⟨effect.answer, effect.notices, effect.sheet.store⟩ :: respond effect.sheet actions

/-! ## One action -/

namespace Sheet

variable {σ τ : Type} {sheet other : Sheet}

theorem uncounted_eq_iff : sheet.uncounted = other.uncounted ↔
    sheet.integerResults = other.integerResults ∧ sheet.store = other.store ∧
      sheet.listeners = other.listeners := by
  cases sheet
  cases other
  simp [uncounted]

theorem calculate_map_fst (hsheet : sheet.uncounted = other.uncounted) (cell : CellRef)
    (table : Table) (calcId otherId : Option String) :
    (sheet.calculate cell table calcId).map (·.1) =
      (other.calculate cell table otherId).map (·.1) := by
  obtain ⟨hresults, hstore, _⟩ := uncounted_eq_iff.mp hsheet
  unfold calculate
  rw [hstore, hresults]
  cases other.store.get? cell with
  | none => rfl
  | some formula => exact outcome_map_fst_congr rfl _ _ _ calcId otherId

/-- A pass goes the same way whoever receives its reports, and under any id. -/
theorem seen_passOver (hsheet : sheet.uncounted = other.uncounted) (receive : σ → Report → σ)
    (hear : τ → Report → τ) (table : Table) (calcId otherId : String) (cells : List CellRef)
    (receiver : σ) (hearer : τ) :
    (sheet.passOver receive table calcId cells receiver).seen =
      (other.passOver hear table otherId cells hearer).seen := by
  induction cells generalizing receiver hearer with
  | nil => rfl
  | cons cell cells ih =>
      have hcalc := calculate_map_fst hsheet cell table (some calcId) (some otherId)
      obtain ⟨_, _, hlisteners⟩ := uncounted_eq_iff.mp hsheet
      rw [passOver, passOver, hlisteners]
      cases hfirst : sheet.calculate cell table (some calcId) with
      | error cause =>
          cases hsecond : other.calculate cell table (some otherId) with
          | error otherCause =>
              rw [hfirst, hsecond] at hcalc
              rw [Except.error.inj hcalc]
              rfl
          | ok result => simp [hfirst, hsecond, Except.map] at hcalc
      | ok result =>
          cases hsecond : other.calculate cell table (some otherId) with
          | error cause => simp [hfirst, hsecond, Except.map] at hcalc
          | ok otherResult =>
              obtain ⟨outcome, report⟩ := result
              obtain ⟨otherOutcome, otherReport⟩ := otherResult
              rw [hfirst, hsecond] at hcalc
              obtain rfl : outcome = otherOutcome := Except.ok.inj hcalc
              dsimp only
              -- The same listener ends both passes, or none does and both go on.
              split
              · rfl
              · have hrest := ih (receive receiver report) (hear hearer otherReport)
                simp only [Pass.seen, Pass.mk.injEq] at hrest ⊢
                simp [hrest]

theorem seen_recalculate (hsheet : sheet.uncounted = other.uncounted)
    (receive : σ → Report → σ) (hear : τ → Report → τ) (cells : List CellRef) (table : Table)
    (receiver : σ) (hearer : τ) :
    (Effect.ofPass (sheet.recalculate receive cells table receiver)).seen =
      (Effect.ofPass (other.recalculate hear cells table hearer)).seen := by
  have hpass := seen_passOver hsheet receive hear table (calcIdOf (sheet.recalculations + 1))
    (calcIdOf (other.recalculations + 1)) cells
    (receive receiver (startReport (calcIdOf (sheet.recalculations + 1)) cells.length))
    (hear hearer (startReport (calcIdOf (other.recalculations + 1)) cells.length))
  simp only [Pass.seen, Pass.mk.injEq] at hpass
  obtain ⟨htexts, _, hnotices, hinterruption, _⟩ := hpass
  have hcounted : ∀ n m : Nat, uncounted { sheet with recalculations := n } =
      uncounted { other with recalculations := m } := fun _ _ => hsheet
  simp only [Effect.ofPass, Effect.seen, recalculate, htexts, hnotices, hinterruption,
    hcounted _ (other.recalculations + 1)]

theorem seen_ofChange {change otherChange : Sheet × Except Interruption (List Report)}
    (hchange : change.1.uncounted = otherChange.1.uncounted) (hreports : change.2 = otherChange.2)
    (receive : σ → Report → σ) (hear : τ → Report → τ) (receiver : σ) (hearer : τ) :
    (Effect.ofChange receive change receiver).seen =
      (Effect.ofChange hear otherChange hearer).seen := by
  rw [Effect.ofChange, Effect.ofChange, hreports]
  cases otherChange.2 <;> simp only [Effect.seen, hchange]

theorem seen_ofCalculation {calculation otherCalculation : Except Interruption (Outcome × Report)}
    (hsheet : sheet.uncounted = other.uncounted)
    (hcalc : calculation.map (·.1) = otherCalculation.map (·.1)) (receive : σ → Report → σ)
    (hear : τ → Report → τ) (receiver : σ) (hearer : τ) :
    (Effect.ofCalculation receive sheet calculation receiver).seen =
      (Effect.ofCalculation hear other otherCalculation hearer).seen := by
  cases calculation with
  | error cause =>
      cases otherCalculation with
      | error otherCause =>
          obtain rfl : cause = otherCause := Except.error.inj hcalc
          simp only [Effect.ofCalculation, Effect.seen, hsheet]
      | ok otherResult => cases hcalc
  | ok result =>
      cases otherCalculation with
      | error otherCause => cases hcalc
      | ok otherResult =>
          have houtcome : result.1 = otherResult.1 := Except.ok.inj hcalc
          simp only [Effect.ofCalculation, Effect.seen, hsheet, houtcome]

/-- A text is refused by both of two sheets, or changes their formulas alike. -/
theorem set_uncounted (hsheet : sheet.uncounted = other.uncounted) (cell : CellRef)
    (text : Option String) :
    (∃ fault, sheet.set cell text = .error fault ∧ other.set cell text = .error fault) ∨
      ∃ change otherChange, sheet.set cell text = .ok change ∧
        other.set cell text = .ok otherChange ∧
        change.1.uncounted = otherChange.1.uncounted ∧ change.2 = otherChange.2 := by
  obtain ⟨hresults, hstore, hlisteners⟩ := uncounted_eq_iff.mp hsheet
  unfold set
  split
  next hstrip =>
    refine .inr ⟨_, _, rfl, rfl, ?_, by simp only [clear, hstore]⟩
    exact uncounted_eq_iff.mpr ⟨hresults, by simp only [clear, hstore], hlisteners⟩
  next hstrip =>
    refine .inr ⟨_, _, rfl, rfl, ?_, rfl⟩
    exact uncounted_eq_iff.mpr ⟨hresults, by simp only [hstore], hlisteners⟩
  next => exact .inl ⟨_, rfl, rfl⟩

/-- What is seen of an action depends neither on who receives its reports nor on ids. -/
theorem seen_perform (hsheet : sheet.uncounted = other.uncounted) (receive : σ → Report → σ)
    (hear : τ → Report → τ) (action : Action) (receiver : σ) (hearer : τ) :
    (sheet.perform receive action receiver).seen =
      (other.perform hear action.withoutId hearer).seen := by
  obtain ⟨hresults, hstore, hlisteners⟩ := uncounted_eq_iff.mp hsheet
  unfold perform
  cases action with
  | set cell text =>
      dsimp only [Action.withoutId]
      rcases set_uncounted hsheet cell text with
        ⟨fault, hset, hother⟩ | ⟨change, otherChange, hset, hother, hchange, hreports⟩
      · rw [hset, hother]
        simp only [Effect.seen, hsheet]
      · rw [hset, hother]
        exact seen_ofChange hchange hreports receive hear receiver hearer
  | clear cell =>
      apply seen_ofChange
      · exact uncounted_eq_iff.mpr ⟨hresults, by simp only [clear, hstore], hlisteners⟩
      · simp only [clear, hstore]
  | clearAll =>
      apply seen_ofChange
      · exact uncounted_eq_iff.mpr ⟨hresults, rfl, hlisteners⟩
      · rfl
  | subscribe listener =>
      apply seen_ofChange
      · exact uncounted_eq_iff.mpr ⟨hresults, hstore, by simp only [subscribe, hlisteners]⟩
      · rfl
  | calculate cell table calcId =>
      exact seen_ofCalculation hsheet (calculate_map_fst hsheet cell table calcId none)
        receive hear receiver hearer
  | calculateFormula formula table =>
      apply seen_ofCalculation hsheet
      rw [calculateFormula, calculateFormula, hresults]
  | recalculateDependents place table =>
      dsimp only [Action.withoutId]
      unfold recalculateDependents
      split
      · simp only [Effect.ofPass, Effect.seen, hsheet]
      next column _ =>
        have hdependents : sheet.dependents (Table.nameKey column.name) =
            other.dependents (Table.nameKey column.name) := by
          rw [dependents, dependents, hstore]
        rw [hdependents]
        exact seen_recalculate hsheet receive hear _ table receiver hearer
  | recalculateAll table =>
      dsimp only [Action.withoutId]
      rw [recalculateAll, recalculateAll, hstore]
      exact seen_recalculate hsheet receive hear _ table receiver hearer

/-- Actions that differ in their ids at most are seen alike. -/
theorem seen_perform_eq {action otherAction : Action}
    (hsheet : sheet.uncounted = other.uncounted)
    (haction : action.withoutId = otherAction.withoutId) (receive : σ → Report → σ)
    (hear : τ → Report → τ) (receiver : σ) (hearer : τ) :
    (sheet.perform receive action receiver).seen =
      (other.perform hear otherAction hearer).seen := by
  rw [seen_perform hsheet receive hear action receiver hearer, haction,
    seen_perform rfl hear hear otherAction hearer hearer]

end Sheet

/-! ## Whole runs -/

namespace Session

/-- The responses of a run are those of the sheet alone. Only the numbers of recalculations
may drift apart, so that is all that the induction leaves out of account. -/
theorem run_eq_respond {session : Session} {sheet : Sheet} {steps : List Step}
    {others : List Action} (hsheet : session.sheet.uncounted = sheet.uncounted)
    (hactions : (actions steps).map Action.withoutId = others.map Action.withoutId) :
    session.run steps = sheet.respond others := by
  induction steps generalizing session sheet others with
  | nil =>
      have hnil : others = [] := List.map_eq_nil_iff.mp hactions.symm
      rw [hnil]
      rfl
  | cons step steps ih =>
      cases step with
      | logging change =>
          -- The sheet stays as it is, and no action is added.
          exact ih hsheet hactions
      | act action meanwhile =>
          cases others with
          | nil => cases hactions
          | cons otherAction others =>
              obtain ⟨haction, hrest⟩ := List.cons.inj hactions
              have hseen := Sheet.seen_perform_eq hsheet haction (reportAmid meanwhile)
                (fun _ _ => ()) (0, session.reporter) ()
              simp only [Effect.seen, Effect.mk.injEq] at hseen
              obtain ⟨hafter, hanswer, hnotices, _⟩ := hseen
              have hstore := (Sheet.uncounted_eq_iff.mp hafter).2.1
              rw [run, Sheet.respond]
              dsimp only [performAmid]
              rw [hanswer, hnotices, hstore, ih hafter hrest]

/-- Logging never influences calculation. Two runs of the same actions, ids aside, on sheets
with the same formulas and listeners have the same responses, whatever happens to logging in
either; and they are the responses of the sheet if it is never logged at all. -/
theorem run_eq_of_same_actions {first second : Session} {steps others : List Step}
    (hsheet : first.sheet.uncounted = second.sheet.uncounted)
    (hactions : (actions steps).map Action.withoutId = (actions others).map Action.withoutId) :
    first.run steps = second.run others ∧
      first.run steps = first.sheet.respond (actions steps) := by
  have hfirst : first.run steps = first.sheet.respond (actions steps) := run_eq_respond rfl rfl
  have hsecond : second.run others = first.sheet.respond (actions steps) :=
    run_eq_respond hsheet.symm hactions.symm
  exact ⟨hfirst.trans hsecond.symm, hfirst⟩

/-- A run without a log and one with a log that is blocked, for a calculation id that names no
file, while the clock runs on: both store the formula and show that there is one cell. -/
theorem run_eq_of_same_actions_blocked :
    let session : Session := ⟨Sheet.start true, Reporter.start .empty "" .zero⟩
    let table : Table := ⟨[⟨"a", [some "1", none]⟩]⟩
    let still : Nat → Reporter → Reporter := fun _ reporter => reporter
    let steps : List Step := [.act (.set ⟨0, 0⟩ (some " =COUNT(A)")) still,
      .act (.calculate ⟨0, 0⟩ table none) still, .act (.recalculateAll table) still]
    let blocked : List Step :=
      [.logging fun reporter => { reporter with
          tree := reporter.tree.put (Log.globalFile []) .folder
          log := some ⟨[], Log.defaultTailBytes, .own⟩ },
        .act (.set ⟨0, 0⟩ (some " =COUNT(A)")) still,
        .act (.calculate ⟨0, 0⟩ table (some "../a")) still,
        .act (.recalculateAll table) fun n reporter => { reporter with clock := .ofNat (99 * n) }]
    let store := FormulaStore.empty.insert ⟨0, 0⟩ "=COUNT(A)"
    let responses : List Response := [⟨.done, [], store⟩, ⟨.outcome (.ofResult "1"), [], store⟩,
      ⟨.texts [(⟨0, 0⟩, "1")], [], store⟩]
    (session.sheet.uncounted = session.sheet.uncounted ∧
      (actions steps).map Action.withoutId = (actions blocked).map Action.withoutId) ∧
      session.run steps = responses ∧ session.run blocked = responses := by
  intro session table still steps blocked store responses
  have hactions : (actions steps).map Action.withoutId =
      (actions blocked).map Action.withoutId := by
    simp only [steps, blocked, actions, List.map_cons, Action.withoutId]
  have hquiet : session.run steps = responses := by decide +kernel
  exact ⟨⟨rfl, hactions⟩, hquiet, (run_eq_of_same_actions rfl hactions).1.symm.trans hquiet⟩

end Session

end ColumnFormula
