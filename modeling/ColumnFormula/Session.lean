import ColumnFormula.Sheet.Recalculation

/-!
# Sessions

A session is a sheet together with the place where its reports go. While an action is
performed on the sheet its reports are handed over one by one, as they come about; so logging
sees what a sheet does, while a sheet never sees what becomes of its reports.
-/

namespace ColumnFormula

/-- Something to do with a sheet. -/
inductive Action where
  | set (cell : CellRef) (text : Option String)
  | clear (cell : CellRef)
  | clearAll
  | subscribe (listener : Listener)
  | calculate (cell : CellRef) (table : Table) (calcId : Option String)
  | calculateFormula (formula : RawText) (table : Table)
  | recalculateDependents (place : Int) (table : Table)
  | recalculateAll (table : Table)

/-- What an action comes to. -/
inductive Answer where
  | done
  /-- A text is no formula. -/
  | refused (fault : SyntaxFault)
  | outcome (outcome : Outcome)
  | texts (texts : List (CellRef × String))
  | interrupted (cause : Interruption)
  deriving DecidableEq, Repr

/-- The sheet after an action, with all that the action brought about; `receiver` is what
receives the reports, after the last of them. -/
structure Effect (σ : Type) where
  sheet : Sheet
  answer : Answer
  notices : List Notice
  receiver : σ

namespace Effect

variable {σ : Type} (receive : σ → Report → σ)

/-- The effect of a change of formulas. -/
def ofChange (change : Sheet × Except Interruption (List Report)) (receiver : σ) : Effect σ :=
  match change.2 with
  | .ok reports => ⟨change.1, .done, [], reports.foldl receive receiver⟩
  | .error cause => ⟨change.1, .interrupted cause, [], receiver⟩

/-- The effect of calculating one formula, which leaves the sheet as it is. -/
def ofCalculation (sheet : Sheet) (calculation : Except Interruption (Outcome × Report))
    (receiver : σ) : Effect σ :=
  match calculation with
  | .ok (outcome, report) => ⟨sheet, .outcome outcome, [], receive receiver report⟩
  | .error cause => ⟨sheet, .interrupted cause, [], receiver⟩

def ofPass (result : Sheet × Sheet.Pass σ) : Effect σ :=
  let (sheet, pass) := result
  let answer := match pass.interruption with
    | none => .texts pass.texts
    | some cause => .interrupted cause
  ⟨sheet, answer, pass.notices, pass.receiver⟩

end Effect

def Sheet.perform {σ : Type} (receive : σ → Report → σ) (sheet : Sheet) (action : Action)
    (receiver : σ) : Effect σ :=
  match action with
  | .set cell text =>
    match sheet.set cell text with
    | .ok change => .ofChange receive change receiver
    | .error fault => ⟨sheet, .refused fault, [], receiver⟩
  | .clear cell => .ofChange receive (sheet.clear cell) receiver
  | .clearAll => .ofChange receive (sheet.clearAll, .ok []) receiver
  | .subscribe listener => .ofChange receive (sheet.subscribe listener, .ok []) receiver
  | .calculate cell table calcId =>
    .ofCalculation receive sheet (sheet.calculate cell table calcId) receiver
  | .calculateFormula formula table =>
    .ofCalculation receive sheet (sheet.calculateFormula formula table) receiver
  | .recalculateDependents place table =>
    .ofPass (sheet.recalculateDependents receive place table receiver)
  | .recalculateAll table => .ofPass (sheet.recalculateAll receive table receiver)

/-- A sheet and where its reports go. -/
structure Session where
  sheet : Sheet
  reporter : Reporter

namespace Session

/-- Hand over a report, counted from zero, after what has happened to logging in the
meantime. -/
def reportAmid (meanwhile : Nat → Reporter → Reporter) (state : Nat × Reporter)
    (report : Report) : Nat × Reporter :=
  (state.1 + 1, (meanwhile state.1 state.2).report report)

/-- Perform an action, and report what it brings about. Before its `n`-th report, `meanwhile n`
happens to logging: the clock runs on, or a file is blocked. -/
def performAmid (meanwhile : Nat → Reporter → Reporter) (session : Session) (action : Action) :
    Session × Answer × List Notice :=
  let effect := session.sheet.perform (reportAmid meanwhile) action (0, session.reporter)
  (⟨effect.sheet, effect.receiver.2⟩, effect.answer, effect.notices)

/-- Perform an action, and report what it brings about, while nothing else happens. -/
def perform (session : Session) (action : Action) : Session × Answer × List Notice :=
  session.performAmid (fun _ reporter => reporter) action

end Session

end ColumnFormula
