import ColumnFormula.Proofs.Aggregate.Replies
import ColumnFormula.Proofs.Formula.Grammar
import ColumnFormula.Proofs.Session.Independence
import ColumnFormula.Proofs.Sheet.Dependents
import ColumnFormula.Proofs.Sheet.Store
import Mathlib.Data.List.Induction
import Mathlib.Logic.Function.Basic

/-!
# The formulas of a sheet are a map

What actions do to the formulas of a sheet is what they do to a function from cells to texts:
setting a cell and taking its formula away change the value of this cell, and nothing else
changes a value. Only texts that begin with an equals sign get into the map, without the blanks
around them, so no cell ever fails for want of an equals sign.
-/

namespace ColumnFormula

open Text (strip strip_strip)

/-! ## The reference -/

namespace Action

/-- What a cell is set to, without the blanks around it. -/
def trimmed (text : Option String) : List Char :=
  strip (text.getD "").toList

/-- Whether a cell may be set to a text: it is blank, or it begins with an equals sign. -/
def IsSettable (text : Option String) : Prop :=
  trimmed text = [] ∨ (trimmed text).head? = some '='

/-- Formulas by cell, after an action. -/
def rebind (formulas : CellRef → Option String) : Action → CellRef → Option String
  | .set cell text =>
    if trimmed text = [] then Function.update formulas cell none
    else if (trimmed text).head? = some '=' then
      Function.update formulas cell (some (String.ofList (trimmed text)))
    else formulas
  | .clear cell => Function.update formulas cell none
  | .clearAll => fun _ => none
  | .subscribe _ | .calculate .. | .calculateFormula .. | .recalculateDependents ..
  | .recalculateAll _ => formulas

/-- Whether an action is about the formula of a cell. -/
def IsAbout (cell : CellRef) : Action → Prop
  | .set other _ | .clear other => other = cell
  | .clearAll => True
  | .subscribe _ | .calculate .. | .calculateFormula .. | .recalculateDependents ..
  | .recalculateAll _ => False

section Set

variable {text : Option String} (formulas : CellRef → Option String) (cell : CellRef)

theorem rebind_set_of_blank (h : trimmed text = []) :
    rebind formulas (.set cell text) = Function.update formulas cell none := by
  rw [rebind, if_pos h]

theorem rebind_set_of_equals (h : (trimmed text).head? = some '=') :
    rebind formulas (.set cell text) =
      Function.update formulas cell (some (String.ofList (trimmed text))) := by
  have hne : trimmed text ≠ [] := by
    intro hnil
    rw [hnil] at h
    cases h
  rw [rebind, if_neg hne, if_pos h]

theorem rebind_set_of_not_isSettable (h : ¬ IsSettable text) :
    rebind formulas (.set cell text) = formulas := by
  obtain ⟨hblank, hequals⟩ := not_or.mp h
  rw [rebind, if_neg hblank, if_neg hequals]

end Set

theorem rebind_of_not_isAbout {action : Action} {cell : CellRef} (h : ¬ action.IsAbout cell)
    (formulas : CellRef → Option String) : action.rebind formulas cell = formulas cell := by
  cases action with
  | set other text =>
      have hne : cell ≠ other := fun heq => h heq.symm
      rw [rebind]
      split
      · exact Function.update_of_ne hne none formulas
      · split
        · exact Function.update_of_ne hne _ formulas
        · rfl
  | clear other => exact Function.update_of_ne (fun heq => h heq.symm) none formulas
  | clearAll => exact absurd trivial h
  | _ => rfl

end Action

/-- Whether a text has the form in which formulas are kept. -/
def IsKept (formula : String) : Prop :=
  formula ≠ "" ∧ strip formula.toList = formula.toList ∧ formula.toList.head? = some '='

theorem isKept_trimmed {text : Option String} (h : (Action.trimmed text).head? = some '=') :
    IsKept (String.ofList (Action.trimmed text)) := by
  refine ⟨?_, by simp [Action.trimmed], by simpa using h⟩
  intro hempty
  rw [String.ofList_eq_empty_iff] at hempty
  rw [hempty] at h
  cases h

/-- Only texts in the form of kept formulas get into the map. -/
theorem Action.isKept_rebind {formulas : CellRef → Option String} {cell : CellRef}
    (h : ∀ formula, formulas cell = some formula → IsKept formula) (action : Action) :
    ∀ formula, action.rebind formulas cell = some formula → IsKept formula := by
  by_cases habout : action.IsAbout cell
  · intro formula hformula
    cases action with
    | set other text =>
        obtain rfl : other = cell := habout
        rw [rebind] at hformula
        split at hformula
        · simp at hformula
        · split at hformula
          next hequals =>
            rw [Function.update_self] at hformula
            obtain rfl := Option.some.inj hformula
            exact isKept_trimmed hequals
          next => exact h formula hformula
    | clear other =>
        obtain rfl : other = cell := habout
        simp [rebind] at hformula
    | clearAll => cases hformula
    | _ => exact absurd habout id
  · rw [rebind_of_not_isAbout habout]
    exact h

/-! ## One action -/

namespace Sheet

variable {σ : Type} {sheet : Sheet} {table : Table}

/-- Setting a cell takes its formula away, gives it one, or is refused. -/
theorem set_cases (sheet : Sheet) (cell : CellRef) (text : Option String) :
    (Action.trimmed text = [] ∧ sheet.set cell text = .ok (sheet.clear cell)) ∨
    ((Action.trimmed text).head? = some '=' ∧
      sheet.set cell text = .ok
        ({ sheet with store := sheet.store.insert cell (String.ofList (Action.trimmed text)) },
          announce cell (setReport cell (String.ofList (Action.trimmed text))))) ∨
    (¬ Action.IsSettable text ∧ sheet.set cell text = .error .missingLeadingEquals) := by
  unfold set Action.IsSettable Action.trimmed
  split
  next hblank => exact .inl ⟨hblank, rfl⟩
  next rest hequals => exact .inr (.inl ⟨by rw [hequals]; rfl, by rw [hequals]⟩)
  next hblank hequals =>
    refine .inr (.inr ⟨?_, rfl⟩)
    rintro (hnil | hhead)
    · exact hblank hnil
    · obtain ⟨rest, hrest⟩ := List.head?_eq_some_iff.mp hhead
      exact hequals rest hrest

theorem get?_clear (sheet : Sheet) (cell : CellRef) :
    (sheet.clear cell).1.store.get? = Function.update sheet.store.get? cell none := by
  ext1 other
  rw [Function.update_apply]
  exact FormulaStore.get?_erase sheet.store cell other

theorem store_recalculateDependents (receive : σ → Report → σ) (place : Int) (table : Table)
    (receiver : σ) :
    (sheet.recalculateDependents receive place table receiver).1.store = sheet.store := by
  unfold recalculateDependents
  split <;> rfl

theorem sheet_ofCalculation (receive : σ → Report → σ)
    (calculation : Except Interruption (Outcome × Report)) (receiver : σ) :
    (Effect.ofCalculation receive sheet calculation receiver).sheet = sheet := by
  cases calculation <;> rfl

theorem sheet_ofChange (receive : σ → Report → σ)
    (change : Sheet × Except Interruption (List Report)) (receiver : σ) :
    (Effect.ofChange receive change receiver).sheet = change.1 := by
  unfold Effect.ofChange
  split <;> rfl

/-- A change is made, unless the cell is too far out for a message; then it is made and the
caller is told so. -/
theorem answer_ofChange (receive : σ → Report → σ) {cell : CellRef}
    {change : Sheet × Except Interruption (List Report)} (receiver : σ)
    (hchange : (∃ reports, change.2 = .ok reports) ∨ ∃ report, change.2 = announce cell report) :
    (Effect.ofChange receive change receiver).answer = .done ∨
      isHuge cell = true ∧
        (Effect.ofChange receive change receiver).answer = .interrupted .hugeInteger := by
  unfold Effect.ofChange
  rcases hchange with ⟨reports, hreports⟩ | ⟨report, hreport⟩
  · rw [hreports]
    exact .inl rfl
  · rw [hreport, announce]
    cases hhuge : isHuge cell with
    | true => exact .inr ⟨rfl, rfl⟩
    | false => exact .inl rfl

theorem clear_cases (sheet : Sheet) (cell : CellRef) :
    (∃ reports, (sheet.clear cell).2 = .ok reports) ∨
      ∃ report, (sheet.clear cell).2 = announce cell report := by
  unfold clear
  split
  · exact .inr ⟨_, rfl⟩
  · exact .inl ⟨_, rfl⟩

/-- The step: an action changes the formulas of a sheet as it changes the map. -/
theorem get?_perform (receive : σ → Report → σ) (action : Action) (receiver : σ) :
    (sheet.perform receive action receiver).sheet.store.get? = action.rebind sheet.store.get? := by
  cases action with
  | set cell text =>
      rw [perform]
      rcases set_cases sheet cell text with ⟨hblank, hset⟩ | ⟨hequals, hset⟩ | ⟨hnot, hset⟩
      · rw [Action.rebind_set_of_blank _ cell hblank]
        simp only [hset, sheet_ofChange]
        exact get?_clear sheet cell
      · rw [Action.rebind_set_of_equals _ cell hequals]
        simp only [hset, sheet_ofChange]
        ext1 other
        rw [Function.update_apply]
        exact FormulaStore.get?_insert sheet.store cell other _
      · rw [Action.rebind_set_of_not_isSettable _ cell hnot]
        simp only [hset]
  | clear cell =>
      rw [perform, sheet_ofChange]
      exact get?_clear sheet cell
  | clearAll => rfl
  | subscribe listener => rfl
  | calculate cell table calcId =>
      exact congrArg (·.store.get?) (sheet_ofCalculation receive _ receiver)
  | calculateFormula formula table =>
      exact congrArg (·.store.get?) (sheet_ofCalculation receive _ receiver)
  | recalculateDependents place table =>
      exact congrArg FormulaStore.get? (store_recalculateDependents receive place table receiver)
  | recalculateAll table => rfl

end Sheet

/-! ## Runs -/

namespace Session

/-- The session after a step of a run. -/
def step (session : Session) : Step → Session
  | .act action meanwhile => (session.performAmid meanwhile action).1
  | .logging change => { session with reporter := change session.reporter }

/-- The session after a run. -/
def after (session : Session) (steps : List Step) : Session :=
  steps.foldl step session

/-- The run: the formulas are those of the map, whatever happens to logging. -/
theorem get?_after (session : Session) (steps : List Step) :
    (session.after steps).sheet.store.get? =
      (actions steps).foldl (fun formulas action => action.rebind formulas)
        session.sheet.store.get? := by
  unfold after
  induction steps generalizing session with
  | nil => rfl
  | cons step steps ih =>
      rw [List.foldl_cons, ih]
      cases step with
      | logging change => rfl
      | act action meanwhile =>
          rw [actions, List.foldl_cons]
          exact congrArg (List.foldl _ · _)
            (Sheet.get?_perform (reportAmid meanwhile) action (0, session.reporter))

/-- The formulas of a new sheet after some actions. -/
def formulasAfter (actions : List Action) : CellRef → Option String :=
  actions.foldl (fun formulas action => action.rebind formulas) fun _ => none

theorem isKept_formulasAfter {actions : List Action} {cell : CellRef} {formula : String}
    (h : formulasAfter actions cell = some formula) : IsKept formula := by
  unfold formulasAfter at h
  induction actions using List.reverseRecOn generalizing formula with
  | nil => cases h
  | append_singleton actions action ih =>
      rw [List.foldl_concat] at h
      exact action.isKept_rebind (fun _ => ih) formula h

end Session

/-! ## Calculations -/

/-- Only a missing equals sign is told of by its code. -/
theorem FormulaError.code_eq_iff {error : FormulaError} :
    error.code = SyntaxFault.missingLeadingEquals.code ↔
      error = .malformed .missingLeadingEquals := by
  cases error with
  | malformed fault => cases fault <;> simp [code, SyntaxFault.code]
  | _ => simp [code, SyntaxFault.code]

/-- Texts differ if neither of their beginnings leads to the other. -/
theorem Text.append_ne_append {a b : String}
    (h : ¬ (a.toList <+: b.toList ∨ b.toList <+: a.toList)) (s t : String) : a ++ s ≠ b ++ t := by
  intro heq
  have hchars := congrArg String.toList heq
  rw [String.toList_append, String.toList_append] at hchars
  apply h
  apply List.prefix_or_prefix_of_prefix (List.prefix_append _ s.toList)
  rw [hchars]
  exact List.prefix_append _ t.toList

namespace Sheet

variable {sheet : Sheet} {table : Table} {cell : CellRef} {formula : String}

/-- The failures of a formula: one of its form, or one of those of the later steps. -/
theorem evaluate_eq_error {error : FormulaError}
    (h : evaluate (.text formula) table = .error error) :
    (∃ fault, Formula.ofChars formula.toList = .error fault ∧ error = .malformed fault) ∨
      (∃ name, error = .unknownFunction name none) ∨
      (∃ name, error = .columnNotFound name table.names) ∨
      ∃ aggregate : Aggregate, error = .noNumericValues aggregate.name := by
  simp only [evaluate, Formula.ofRaw_text, bind, Except.bind] at h
  split at h
  next fault hparse =>
    cases hchars : Formula.parse formula with
    | ok parsed => simp [hchars, Except.mapError] at hparse
    | error fault' =>
        rw [hchars] at hparse
        obtain rfl := Except.error.inj h
        obtain rfl := Except.error.inj hparse
        exact .inl ⟨fault', hchars, rfl⟩
  split at h
  next error hname =>
    obtain rfl := Except.error.inj h
    exact .inr (.inl ⟨_, Aggregate.eq_of_ofName_eq_error hname⟩)
  split at h
  next error hcells =>
    obtain rfl := Except.error.inj h
    unfold Table.cells Table.column at hcells
    split at hcells
    · cases hcells
    · exact .inr (.inr (.inl ⟨_, (Except.error.inj hcells).symm⟩))
  split at h
  next error happly =>
    obtain rfl := Except.error.inj h
    exact .inr (.inr (.inr ⟨_, Aggregate.eq_of_apply_eq_error happly⟩))
  · cases h

/-- A failure that is told of as a missing equals sign, in code or in words. -/
def MissesEquals (code message : Option String) : Prop :=
  code = some SyntaxFault.missingLeadingEquals.code ∨
    message = some SyntaxFault.missingLeadingEquals.message

/-- A formula with its equals sign fails for other reasons, and no other reason sounds alike. -/
theorem not_missesEquals_of_evaluate {error : FormulaError} (hkept : IsKept formula)
    (h : evaluate (.text formula) table = .error error) :
    ¬ MissesEquals (some error.code) (some error.message) := by
  have hmessage : SyntaxFault.missingLeadingEquals.message =
    "Formula parse error: Formula must" ++ " start with '=' (at position 0)" := by decide
  unfold MissesEquals
  rw [Option.some_inj, Option.some_inj, FormulaError.code_eq_iff, hmessage, not_or]
  obtain ⟨-, hstrip, hhead⟩ := hkept
  rcases evaluate_eq_error h with
    ⟨fault, hfault, rfl⟩ | ⟨name, rfl⟩ | ⟨name, rfl⟩ | ⟨aggregate, rfl⟩
  · rw [Formula.ofChars_eq_error_iff, hstrip] at hfault
    rcases hfault with ⟨hnot, -⟩ | ⟨-, -, rfl⟩ | ⟨-, -, -, rfl⟩
    · exact absurd hhead hnot
    · decide
    · refine ⟨nofun, ?_⟩
      change "Formula parse error: " ++ "Formula missing closing parenthesis" ++
        (" (at position " ++ toString (formula.toList.length : Int) ++ ")") ≠ _
      exact Text.append_ne_append (by decide) _ _
  · exact ⟨nofun, Text.append_ne_append (by decide) _ _⟩
  · refine ⟨nofun, ?_⟩
    change "Column " ++ Text.quoted name ++ " not found" ++
      (if table.names.isEmpty then "" else ". Available: " ++ Text.quotedList table.names) ≠ _
    rw [@String.append_assoc "Column ", @String.append_assoc "Column "]
    exact Text.append_ne_append (by decide) _ _
  · cases aggregate <;> decide

/-- A cell with a kept formula is never told to lack an equals sign, nor is this logged. -/
theorem not_missesEquals_of_calculate (hkept : IsKept formula)
    (hcell : sheet.store.get? cell = some formula) {calcId : Option String} {outcome : Outcome}
    {report : Report} (h : sheet.calculate cell table calcId = .ok (outcome, report)) :
    ¬ MissesEquals report.errorCode outcome.error := by
  unfold calculate Sheet.outcome at h
  rw [hcell] at h
  dsimp only at h
  split at h
  next error heval =>
    obtain ⟨rfl, rfl⟩ := Prod.mk.inj (Except.ok.inj h)
    exact not_missesEquals_of_evaluate hkept heval
  next evaluation _ =>
    split at h
    · obtain ⟨rfl, rfl⟩ := Prod.mk.inj (Except.ok.inj h)
      simp [MissesEquals, Outcome.ofResult, resultReport]
    · cases h

end Sheet

namespace Session

/-- A text that is no formula changes nothing at all; any other text is taken, and the caller is
told so unless the cell is too far out for a message. -/
theorem performAmid_set (session : Session) (meanwhile : Nat → Reporter → Reporter)
    (cell : CellRef) (text : Option String) :
    (Action.IsSettable text →
      (session.performAmid meanwhile (.set cell text)).2.1 = .done ∨
        Sheet.isHuge cell = true ∧
          (session.performAmid meanwhile (.set cell text)).2.1 = .interrupted .hugeInteger) ∧
      (¬ Action.IsSettable text →
        session.performAmid meanwhile (.set cell text) =
          (session, .refused .missingLeadingEquals, [])) := by
  unfold performAmid
  rcases session.sheet.set_cases cell text with ⟨hblank, hset⟩ | ⟨hequals, hset⟩ | ⟨hnot, hset⟩
  · refine ⟨fun _ => ?_, fun hnot => absurd (.inl hblank) hnot⟩
    simp only [Sheet.perform, hset]
    exact Sheet.answer_ofChange _ _ (session.sheet.clear_cases cell)
  · refine ⟨fun _ => ?_, fun hnot => absurd (.inr hequals) hnot⟩
    simp only [Sheet.perform, hset]
    exact Sheet.answer_ofChange _ _ (.inr ⟨_, rfl⟩)
  · refine ⟨fun hsettable => absurd hsettable hnot, fun _ => ?_⟩
    simp only [Sheet.perform, hset]

/-- The formulas of a sheet are a map. After any run that begins with a new sheet, whatever
happened to logging, a cell has the formula that the actions gave it last, and a store lists
each of these cells once; every formula is kept without blanks around it and begins with an
equals sign. From there, an action changes no cell that it is not about; setting a cell to a text
that is no formula is refused, and then the session, with its log, stays as it is, while any
other text is taken, also if the cell is too far out for a message; and calculating a cell that
has a formula never tells of a missing equals sign. -/
theorem formulas_after (integerResults : Bool) (reporter : Reporter) (steps : List Step) :
    let session := after ⟨.start integerResults, reporter⟩ steps
    let store := session.sheet.store
    let formulas := formulasAfter (actions steps)
    ((∀ cell, store.get? cell = formulas cell ∧ store.contains cell = (formulas cell).isSome ∧
        ∀ formula, (cell, formula) ∈ store.entries ↔ formulas cell = some formula) ∧
      store.cells.Nodup) ∧
    (∀ entry ∈ store.entries, IsKept entry.2) ∧
    (∀ action cell meanwhile, ¬ action.IsAbout cell →
      (session.performAmid meanwhile action).1.sheet.store.get? cell = store.get? cell) ∧
    (∀ cell text meanwhile,
      (Action.IsSettable text →
        (session.performAmid meanwhile (.set cell text)).2.1 = .done ∨
          Sheet.isHuge cell = true ∧
            (session.performAmid meanwhile (.set cell text)).2.1 = .interrupted .hugeInteger) ∧
      (¬ Action.IsSettable text →
        session.performAmid meanwhile (.set cell text) =
          (session, .refused .missingLeadingEquals, []))) ∧
    ∀ cell, store.contains cell = true → ∀ table calcId outcome report,
      session.sheet.calculate cell table calcId = .ok (outcome, report) →
        ¬ Sheet.MissesEquals report.errorCode outcome.error := by
  intro session store formulas
  have hget : store.get? = formulas := get?_after ⟨.start integerResults, reporter⟩ steps
  have hkept : ∀ cell formula, store.get? cell = some formula → IsKept formula := by
    intro cell formula hformula
    rw [hget] at hformula
    exact isKept_formulasAfter hformula
  refine ⟨⟨?_, store.nodup_cells⟩, ?_, ?_, fun cell text meanwhile =>
    session.performAmid_set meanwhile cell text, ?_⟩
  · intro cell
    rw [FormulaStore.contains, ← hget]
    exact ⟨rfl, rfl, fun formula => FormulaStore.mem_entries_iff⟩
  · rintro ⟨cell, formula⟩ hentry
    exact hkept cell formula (FormulaStore.mem_entries_iff.mp hentry)
  · intro action cell meanwhile habout
    rw [performAmid, Sheet.get?_perform]
    exact Action.rebind_of_not_isAbout habout store.get?
  · intro cell hcell table calcId outcome report h
    obtain ⟨formula, hformula⟩ := Option.isSome_iff_exists.mp hcell
    exact Sheet.not_missesEquals_of_calculate (hkept cell formula hformula) hformula h

end Session

end ColumnFormula
