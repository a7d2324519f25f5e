import ColumnFormula.Event.Stamp
import ColumnFormula.Proofs.Log.RoundTrip
import ColumnFormula.Proofs.Session.Formulas
import ColumnFormula.Proofs.Session.Reporting

/-!
# Replaying a log

The log of a sheet says which cell got which formula and which cell lost its formula, so the
formulas can be told from it. What it does not say is that all formulas are taken away at once:
if they are, the log still gives every cell the formula that it had, until the cell gets
another one.
-/

namespace ColumnFormula

/-! ## Replay -/

namespace Log

/-- The value of a key in the context of a logged event. -/
def said? (value : Json) (key : String) : Option Json :=
  (value.get? "context").bind (·.get? key)

/-- Formulas by cell, after a logged event. -/
def replayEvent (formulas : CellRef → Option String) (value : Json) : CellRef → Option String :=
  match said? value "row", said? value "col" with
  | some (.int row), some (.int col) =>
    if fieldIs "event_type" EventKind.formulaSet.name value then
      match said? value "formula" with
      | some (.str formula) => Function.update formulas ⟨row, col⟩ (some formula)
      | _ => formulas
    else if fieldIs "event_type" EventKind.formulaCleared.name value then
      Function.update formulas ⟨row, col⟩ none
    else formulas
  | _, _ => formulas

/-- Formulas by cell, as the events of a log tell of them. -/
def replay (values : List Json) : CellRef → Option String :=
  values.foldl replayEvent fun _ => none

variable {event : Event} {formulas : CellRef → Option String}

theorem said?_dump (h : event.HasUniqueKeys) (key : String) :
    said? event.dump key = (event.said key).map Json.sortKeys := by
  have hcontext : event.toFields.lookup "context" = some (.obj event.context) := rfl
  rw [said?, Event.get?_dump, hcontext]
  exact Json.lookup_sortKeysFields h.1 key

theorem fieldIs_kind (kind : EventKind) :
    fieldIs "event_type" kind.name event.dump = decide (event.kind = kind) := by
  have hname : event.toFields.lookup "event_type" = some (.str event.kind.name) := rfl
  rw [fieldIs_dump hname]
  cases event.kind <;> cases kind <;> rfl

theorem replayEvent_of_kind (hset : event.kind ≠ .formulaSet)
    (hcleared : event.kind ≠ .formulaCleared) :
    replayEvent formulas event.dump = formulas := by
  unfold replayEvent
  rw [fieldIs_kind, fieldIs_kind, decide_eq_false hset, decide_eq_false hcleared]
  split <;> rfl

theorem replayEvent_of_set {cell : CellRef} {formula : String} (hkeys : event.HasUniqueKeys)
    (hkind : event.kind = .formulaSet) (hrow : event.said "row" = some (.int cell.row))
    (hcol : event.said "col" = some (.int cell.col))
    (hformula : event.said "formula" = some (.str formula)) :
    replayEvent formulas event.dump = Function.update formulas cell (some formula) := by
  unfold replayEvent
  rw [said?_dump hkeys, said?_dump hkeys, said?_dump hkeys, hrow, hcol, hformula, fieldIs_kind,
    decide_eq_true hkind]
  rfl

theorem replayEvent_of_cleared {cell : CellRef} (hkeys : event.HasUniqueKeys)
    (hkind : event.kind = .formulaCleared) (hrow : event.said "row" = some (.int cell.row))
    (hcol : event.said "col" = some (.int cell.col)) :
    replayEvent formulas event.dump = Function.update formulas cell none := by
  have hset : event.kind ≠ .formulaSet := by
    rw [hkind]
    nofun
  unfold replayEvent
  rw [said?_dump hkeys, said?_dump hkeys, hrow, hcol, fieldIs_kind, fieldIs_kind,
    decide_eq_true hkind, decide_eq_false hset]
  rfl

end Log

/-! ## Formulas that are taken away all at once -/

namespace Action

/-- Formulas by cell that were taken away all at once and have not been replaced, after an
action. -/
def wipe (formulas wiped : CellRef → Option String) (action : Action) : CellRef → Option String :=
  fun cell =>
    match action with
    | .clearAll => (formulas cell).or (wiped cell)
    | action => if (action.rebind formulas cell).isSome then none else wiped cell

/-- Whether no cell has both a formula and one that was taken away. -/
def Apart (formulas wiped : CellRef → Option String) : Prop :=
  ∀ cell, (formulas cell).isSome = true → wiped cell = none

variable {action : Action} {formulas wiped : CellRef → Option String}

theorem wipe_of_ne (h : action ≠ .clearAll) (cell : CellRef) :
    action.wipe formulas wiped cell =
      if (action.rebind formulas cell).isSome then none else wiped cell := by
  cases action with
  | clearAll => exact absurd rfl h
  | _ => rfl

theorem apart_wipe : Apart (action.rebind formulas) (action.wipe formulas wiped) := by
  intro cell hcell
  by_cases haction : action = .clearAll
  · rw [haction] at hcell
    cases hcell
  · rw [wipe_of_ne haction, if_pos hcell]

/-- A formula that is taken away and one that replaces it are told apart by the cell. -/
theorem or_wipe_of_ne (h : action ≠ .clearAll) (cell : CellRef) :
    (action.rebind formulas cell).or (action.wipe formulas wiped cell) =
      (action.rebind formulas cell).or (wiped cell) := by
  rw [wipe_of_ne h]
  cases action.rebind formulas cell <;> rfl

end Action

namespace Sheet

open Log

variable {sheet : Sheet} {report : Report} {entry : Event × Option String}
  {formulas : CellRef → Option String}

/-! ## One report -/

theorem replayEvent_setReport {cell : CellRef} {formula : String}
    (hshort : formula.toList.length ≤ Redaction.keptLength)
    (h : (setReport cell formula).IsWrittenAs entry) :
    replayEvent formulas entry.1.dump = Function.update formulas cell (some formula) := by
  have hkeys := h.hasUniqueKeys (isFlat_setReport cell formula)
  obtain ⟨now, rfl⟩ := h.eq_toEvent rfl
  apply replayEvent_of_set hkeys rfl
  · exact Report.said_toEvent now _ _
  · exact Report.said_toEvent now _ _
  · rw [Report.said_toEvent]
    exact congrArg (some ∘ Json.str) (Redaction.truncate_of_length_le hshort)

theorem replayEvent_clearReport {cell : CellRef} (h : (clearReport cell).IsWrittenAs entry) :
    replayEvent formulas entry.1.dump = Function.update formulas cell none := by
  have hkeys := h.hasUniqueKeys (isFlat_clearReport cell)
  obtain ⟨now, rfl⟩ := h.eq_toEvent rfl
  apply replayEvent_of_cleared hkeys rfl
  · exact Report.said_toEvent now _ _
  · exact Report.said_toEvent now _ _

theorem kind_ne_of_outcome {integerResults : Bool} {formula : RawText} {table : Table}
    {context : List (String × Json)} {calcId : Option String} {outcome : Outcome}
    (h : Sheet.outcome integerResults formula table context calcId = .ok (outcome, report)) :
    report.kind ≠ .formulaSet ∧ report.kind ≠ .formulaCleared := by
  unfold Sheet.outcome at h
  split at h
  · obtain ⟨-, rfl⟩ := Prod.mk.inj (Except.ok.inj h)
    exact ⟨nofun, nofun⟩
  · split at h
    · obtain ⟨-, rfl⟩ := Prod.mk.inj (Except.ok.inj h)
      exact ⟨nofun, nofun⟩
    · cases h

theorem IsOfCalculation.kind_ne (h : sheet.IsOfCalculation report) :
    report.kind ≠ .formulaSet ∧ report.kind ≠ .formulaCleared := by
  cases h with
  | cell hcalc =>
      unfold calculate at hcalc
      split at hcalc
      · obtain ⟨-, rfl⟩ := Prod.mk.inj (Except.ok.inj hcalc)
        exact ⟨nofun, nofun⟩
      · exact kind_ne_of_outcome hcalc
  | formula hcalc => exact kind_ne_of_outcome hcalc
  | start calcId cells => exact ⟨nofun, nofun⟩
  | finish calcId cells failed => exact ⟨nofun, nofun⟩

theorem replayEvent_of_calculation (h : sheet.IsOfCalculation report)
    (hentry : report.IsWrittenAs entry) : replayEvent formulas entry.1.dump = formulas := by
  obtain ⟨-, now, fields, -, hevent⟩ := hentry
  rw [hevent]
  exact replayEvent_of_kind h.kind_ne.1 h.kind_ne.2

/-! ## One action -/

variable {entries : List (Event × Option String)} {wiped : CellRef → Option String}

/-- The dumps of some entries, replayed upon formulas by cell. -/
def replayEntries (entries : List (Event × Option String)) (formulas : CellRef → Option String) :
    CellRef → Option String :=
  (entries.map (·.1.dump)).foldl replayEvent formulas

theorem replayEntries_append (first second : List (Event × Option String))
    (formulas : CellRef → Option String) :
    replayEntries (first ++ second) formulas =
      replayEntries second (replayEntries first formulas) := by
  rw [replayEntries, List.map_append, List.foldl_append]
  rfl

theorem replayEntries_singleton (entry : Event × Option String)
    (formulas : CellRef → Option String) :
    replayEntries [entry] formulas = replayEvent formulas entry.1.dump := by
  rw [replayEntries, List.map_singleton, List.foldl_cons, List.foldl_nil]

theorem replayEntries_of_calculation {reports : List Report}
    (h : ∀ report ∈ reports, sheet.IsOfCalculation report)
    (hentries : List.Forall₂ Report.IsWrittenAs reports entries) :
    replayEntries entries formulas = formulas := by
  induction hentries with
  | nil => rfl
  | @cons report entry reports entries hentry _ ih =>
      rw [List.forall_mem_cons] at h
      rw [replayEntries, List.map_cons, List.foldl_cons, replayEvent_of_calculation h.1 hentry]
      exact ih h.2

/-- A change is reported unless it is stopped for its message. -/
theorem announce_of_answer {changed : Sheet} {cell : CellRef}
    (h : (Effect.ofChange collect (changed, announce cell report) []).answer ≠
      .interrupted .hugeInteger) : announce cell report = .ok [report] := by
  unfold announce at h ⊢
  split at h
  · exact absurd rfl h
  next hcell => rw [if_neg hcell]

theorem reports_of_clear {cell : CellRef}
    (h : (Effect.ofChange collect (sheet.clear cell) []).answer ≠ .interrupted .hugeInteger) :
    (sheet.clear cell).2.toOption.getD [] =
      if sheet.store.contains cell then [clearReport cell] else [] := by
  unfold clear at h ⊢
  dsimp only
  split at h
  next hcell =>
    rw [if_pos hcell, if_pos hcell, announce_of_answer h]
    rfl
  next hcell =>
    rw [if_neg hcell, if_neg hcell]
    rfl

theorem replayEntries_clear {cell : CellRef} (hapart : Action.Apart sheet.store.get? wiped)
    (hentries : List.Forall₂ Report.IsWrittenAs
      (if sheet.store.contains cell then [clearReport cell] else []) entries) :
    replayEntries entries (fun other => (sheet.store.get? other).or (wiped other)) =
      fun other => (Function.update sheet.store.get? cell none other).or (wiped other) := by
  split at hentries
  next hcell =>
    obtain ⟨entry, rest, hentry, hrest, rfl⟩ := List.forall₂_cons_left_iff.mp hentries
    obtain rfl := List.forall₂_nil_left_iff.mp hrest
    rw [replayEntries_singleton, replayEvent_clearReport hentry]
    funext other
    rw [Function.update_apply, Function.update_apply]
    split
    next hother => rw [hother, hapart cell hcell, Option.none_or]
    next => rfl
  next hcell =>
    obtain rfl := List.forall₂_nil_left_iff.mp hentries
    have hnone : sheet.store.get? cell = none := by simpa [FormulaStore.contains] using hcell
    have hsame : Function.update sheet.store.get? cell none = sheet.store.get? := by
      rw [← hnone, Function.update_eq_self]
    rw [hsame]
    rfl

/-- The step: what is logged of an action tells how the formulas change, except that those taken
away all at once stay. -/
theorem replayEntries_reports {action : Action} (hapart : Action.Apart sheet.store.get? wiped)
    (hanswer : (sheet.perform collect action []).answer ≠ .interrupted .hugeInteger)
    (hshort : ∀ cell text, action = .set cell text →
      (Action.trimmed text).length ≤ Redaction.keptLength)
    (hentries : List.Forall₂ Report.IsWrittenAs (sheet.reports action) entries) :
    replayEntries entries (fun cell => (sheet.store.get? cell).or (wiped cell)) = fun cell =>
      (action.rebind sheet.store.get? cell).or (action.wipe sheet.store.get? wiped cell) := by
  by_cases hall : action = .clearAll
  · subst hall
    obtain rfl := List.forall₂_nil_left_iff.mp hentries
    rfl
  rw [funext fun cell => Action.or_wipe_of_ne hall cell]
  cases action with
  | set cell text =>
      rw [reports_set] at hentries
      rw [perform] at hanswer
      rcases set_cases sheet cell text with ⟨hblank, hset⟩ | ⟨hequals, hset⟩ | ⟨hnot, hset⟩
      · rw [hset] at hentries hanswer
        dsimp only at hentries
        rw [reports_of_clear hanswer] at hentries
        rw [Action.rebind_set_of_blank _ cell hblank]
        exact replayEntries_clear hapart hentries
      · rw [hset] at hentries hanswer
        dsimp only at hentries
        rw [announce_of_answer hanswer] at hentries
        obtain ⟨entry, rest, hentry, hrest, rfl⟩ := List.forall₂_cons_left_iff.mp hentries
        obtain rfl := List.forall₂_nil_left_iff.mp hrest
        rw [Action.rebind_set_of_equals _ cell hequals]
        have hlength : (String.ofList (Action.trimmed text)).toList.length ≤
            Redaction.keptLength := by
          rw [String.toList_ofList]
          exact hshort cell text rfl
        rw [replayEntries_singleton, replayEvent_setReport hlength hentry]
        funext other
        rw [Function.update_apply, Function.update_apply]
        split <;> rfl
      · rw [hset] at hentries
        obtain rfl := List.forall₂_nil_left_iff.mp hentries
        rw [Action.rebind_set_of_not_isSettable _ cell hnot]
        rfl
  | clear cell =>
      rw [reports_clear, reports_of_clear hanswer] at hentries
      exact replayEntries_clear hapart hentries
  | clearAll => exact absurd rfl hall
  | _ =>
      refine replayEntries_of_calculation (isOfCalculation_of_mem_reports ?_ ?_) hentries
      · intro _ _ hset
        cases hset
      · intro _ hclear
        cases hclear

theorem isFlat_of_mem_announce (cell : CellRef) (h : report.IsFlat) :
    ∀ told ∈ (announce cell report).toOption.getD [], told.IsFlat := by
  unfold announce
  split
  · exact List.forall_mem_nil _
  · exact List.forall_mem_singleton.mpr h

theorem isFlat_of_mem_reports {action : Action} :
    ∀ report ∈ sheet.reports action, report.IsFlat := by
  have hclear : ∀ cell, ∀ report ∈ (sheet.clear cell).2.toOption.getD [], report.IsFlat := by
    intro cell
    unfold clear
    dsimp only
    split
    · exact isFlat_of_mem_announce cell (isFlat_clearReport cell)
    · exact List.forall_mem_nil _
  cases action with
  | set cell text =>
      rw [reports_set]
      rcases set_cases sheet cell text with ⟨-, hset⟩ | ⟨-, hset⟩ | ⟨-, hset⟩
      · rw [hset]
        exact hclear cell
      · rw [hset]
        exact isFlat_of_mem_announce cell (isFlat_setReport cell _)
      · rw [hset]
        exact List.forall_mem_nil _
  | clear cell =>
      rw [reports_clear]
      exact hclear cell
  | _ =>
      intro report hreport
      refine (isOfCalculation_of_mem_reports ?_ ?_ report hreport).isFlat
      · intro _ _ hset
        cases hset
      · intro _ hclear
        cases hclear

end Sheet

/-! ## Runs -/

namespace Action

/-- `wipe` for several actions in a row. -/
def wipeEach (formulas wiped : CellRef → Option String) : List Action → CellRef → Option String
  | [] => wiped
  | action :: actions => wipeEach (action.rebind formulas) (action.wipe formulas wiped) actions

/-- The formulas of a new sheet that some actions took away all at once and did not replace. -/
def wipedAfter (actions : List Action) : CellRef → Option String :=
  wipeEach (fun _ => none) (fun _ => none) actions

theorem apart_wipeEach {actions : List Action} {formulas wiped : CellRef → Option String}
    (h : Apart formulas wiped) :
    Apart (actions.foldl (fun formulas action => action.rebind formulas) formulas)
      (wipeEach formulas wiped actions) := by
  induction actions generalizing formulas wiped with
  | nil => exact h
  | cons action actions ih => exact ih apart_wipe

theorem wipeEach_of_not_mem {actions : List Action} (h : .clearAll ∉ actions)
    (formulas : CellRef → Option String) :
    wipeEach formulas (fun _ => none) actions = fun _ => none := by
  induction actions generalizing formulas with
  | nil => rfl
  | cons action actions ih =>
      rw [List.mem_cons, not_or] at h
      have hwipe : action.wipe formulas (fun _ => none) = fun _ => none := by
        funext cell
        rw [wipe_of_ne (Ne.symm h.1)]
        split <;> rfl
      rw [wipeEach, hwipe]
      exact ih h.2 _

end Action

namespace Session

open Log Sheet

/-- Whether all that is done in a run is reported and gets into the log, while nothing else happens
to logging but that clocks are set. -/
def IsLogged : Session → List Step → Prop
  | _, [] => True
  | session, .act action meanwhile :: steps =>
    OnlyClocks meanwhile ∧ session.accepts meanwhile action = true ∧
      (session.performAmid meanwhile action).2.1 ≠ .interrupted .hugeInteger ∧
      IsLogged (session.step (.act action meanwhile)) steps
  | session, .logging change :: steps =>
    OnlyClocks (fun _ => change) ∧ IsLogged (session.step (.logging change)) steps

/-- The run: what is logged tells how the formulas change from the first step to the last. -/
theorem exists_entries {session : Session} {steps : List Step} {log : Log}
    {wiped : CellRef → Option String} (hlog : session.reporter.log = some log)
    (hlogged : session.IsLogged steps) (hapart : Action.Apart session.sheet.store.get? wiped)
    (hshort : ∀ cell text, .set cell text ∈ actions steps →
      (Action.trimmed text).length ≤ Redaction.keptLength) :
    ∃ entries, log.writeEach entries session.reporter.tree =
        some (session.after steps).reporter.tree ∧
      (∀ entry ∈ entries, entry.1.HasUniqueKeys) ∧
      replayEntries entries (fun cell => (session.sheet.store.get? cell).or (wiped cell)) =
        fun cell => ((session.after steps).sheet.store.get? cell).or
          (Action.wipeEach session.sheet.store.get? wiped (actions steps) cell) := by
  induction steps generalizing session wiped with
  | nil => exact ⟨[], rfl, List.forall_mem_nil _, rfl⟩
  | cons step steps ih =>
      cases step with
      | logging change =>
          obtain ⟨hclocks, hrest⟩ := hlogged
          obtain ⟨htree, hsame⟩ := hclocks 0 session.reporter
          obtain ⟨entries, hwrite, hkeys, hreplay⟩ :=
            @ih (session.step (.logging change)) wiped (hsame.trans hlog) hrest hapart hshort
          refine ⟨entries, ?_, hkeys, hreplay⟩
          rw [← htree]
          exact hwrite
      | act action meanwhile =>
          obtain ⟨hclocks, haccepts, hanswer, hrest⟩ := hlogged
          have hsame : (session.sheet.perform collect action []).answer =
              (session.performAmid meanwhile action).2.1 :=
            congrArg Effect.answer (seen_perform_eq rfl rfl collect (reportAmid meanwhile) []
              (0, session.reporter))
          rw [actions] at hshort ⊢
          obtain ⟨first, hfirst, hwrite, hafter⟩ :=
            exists_writeEach_performAmid hclocks hlog haccepts
          have hstep := replayEntries_reports hapart (hsame ▸ hanswer)
            (fun cell text heq => hshort cell text (heq ▸ List.mem_cons_self)) hfirst
          have hget : (session.step (.act action meanwhile)).sheet.store.get? =
              action.rebind session.sheet.store.get? := get?_perform _ action _
          obtain ⟨entries, hentries, hkeys, hreplay⟩ :=
            @ih (session.step (.act action meanwhile))
              (action.wipe session.sheet.store.get? wiped) hafter hrest
              (hget ▸ Action.apart_wipe)
              (fun cell text hmem => hshort cell text (List.mem_cons_of_mem _ hmem))
          refine ⟨first ++ entries, ?_, ?_, ?_⟩
          · rw [writeEach_append hwrite]
            exact hentries
          · have hfirstKeys := Report.hasUniqueKeys_of_forall₂ isFlat_of_mem_reports hfirst
            exact List.forall_mem_append.mpr ⟨hfirstKeys, hkeys⟩
          · rw [hget] at hreplay
            rw [replayEntries_append, hstep]
            exact hreplay

/-- What the log of a run tells of the formulas. -/
theorem exists_values_after {reporter : Reporter} {log : Log} {steps : List Step}
    (integerResults : Bool) (hlog : reporter.log = some log)
    (hfresh : reporter.tree.contents (globalFile log.folder) = [])
    (hlogged : IsLogged ⟨.start integerResults, reporter⟩ steps)
    (hshort : ∀ cell text, .set cell text ∈ actions steps →
      (Action.trimmed text).length ≤ Redaction.keptLength) :
    let session := after ⟨.start integerResults, reporter⟩ steps
    ∃ values, valuesOf log.limits.depth
        (lineTexts (session.reporter.tree.contents (globalFile log.folder))) = .ok values ∧
      replay values = fun cell =>
        (session.sheet.store.get? cell).or (Action.wipedAfter (actions steps) cell) := by
  intro session
  have hapart : Action.Apart (Sheet.start integerResults).store.get? fun _ => none :=
    fun _ _ => rfl
  obtain ⟨entries, hwrite, hkeys, hreplay⟩ := exists_entries hlog hlogged hapart hshort
  have hall : entries.filter (globalFile log.folder ∈ log.targets ·.2) = entries := by
    rw [List.filter_eq_self]
    exact fun entry _ => decide_eq_true (log.globalFile_mem_targets entry.2)
  have hcontents : session.reporter.tree.contents (globalFile log.folder) =
      (entries.map Prod.fst).flatMap lineBytes := by
    rw [contents_writeEach (.inl rfl) hwrite, hall, List.flatMap_map]
    exact congrArg (· ++ _) hfresh
  refine ⟨(entries.map Prod.fst).map Event.dump, ?_, ?_⟩
  · rw [hcontents]
    apply valuesOf_flatMap
    · exact List.forall_mem_map.mpr hkeys
    · exact List.forall_mem_map.mpr (isWritable_of_writeEach hwrite)
  · rw [List.map_map]
    exact hreplay

/-- A log tells the formulas of a sheet up to those that were taken away all at once. After a run
that begins with a new sheet and an empty log, in which the log took all that was reported and no
formula was too long to be logged in full, replaying the log gives the formulas of the sheet,
and beside them the formulas that were taken away all at once and not replaced since. So the log
tells the formulas exactly if there are none of these, as in a run in which not all formulas are
taken away at once. -/
theorem replay_after {reporter : Reporter} {log : Log} {steps : List Step} (integerResults : Bool)
    (hlog : reporter.log = some log)
    (hfresh : reporter.tree.contents (globalFile log.folder) = [])
    (hlogged : IsLogged ⟨.start integerResults, reporter⟩ steps)
    (hshort : ∀ cell text, .set cell text ∈ actions steps →
      (Action.trimmed text).length ≤ Redaction.keptLength) :
    let session := after ⟨.start integerResults, reporter⟩ steps
    ∃ values, valuesOf log.limits.depth
        (lineTexts (session.reporter.tree.contents (globalFile log.folder))) = .ok values ∧
      (∀ cell, replay values cell =
        (session.sheet.store.get? cell).or (Action.wipedAfter (actions steps) cell)) ∧
      (replay values = session.sheet.store.get? ↔
        ∀ cell, Action.wipedAfter (actions steps) cell = none) ∧
      (.clearAll ∉ actions steps → replay values = session.sheet.store.get?) := by
  intro session
  obtain ⟨values, hvalues, hreplay⟩ := exists_values_after integerResults hlog hfresh hlogged hshort
  have hget : session.sheet.store.get? = formulasAfter (actions steps) :=
    get?_after ⟨.start integerResults, reporter⟩ steps
  have hapart : Action.Apart session.sheet.store.get? (Action.wipedAfter (actions steps)) := by
    rw [hget]
    exact Action.apart_wipeEach fun _ _ => rfl
  have hexact : (∀ cell, Action.wipedAfter (actions steps) cell = none) →
      replay values = session.sheet.store.get? := by
    intro hnone
    rw [hreplay]
    funext cell
    rw [hnone cell, Option.or_none]
  refine ⟨values, hvalues, congrFun hreplay, ⟨?_, hexact⟩, ?_⟩
  · intro hsame cell
    cases hcell : session.sheet.store.get? cell with
    | some formula => exact hapart cell (by rw [hcell]; rfl)
    | none =>
        have htold := congrFun (hreplay.symm.trans hsame) cell
        rwa [hcell, Option.none_or] at htold
  · intro hnever
    exact hexact (congrFun (Action.wipeEach_of_not_mem hnever _))

/-- All formulas are taken away, and then the same cell gets another one. -/
theorem replay_after_replaced :
    let reporter :=
      { Reporter.start .empty "2024" .zero with log := some ⟨[], defaultTailBytes, .own⟩ }
    let meanwhile : Nat → Reporter → Reporter := fun n reporter =>
      { reporter with now := Stamp.ofMicroseconds n, clock := .ofNat n }
    let table : Table := ⟨[⟨"A", [some "1", some "2.5", none]⟩]⟩
    let steps : List Step := [.act (.set ⟨0, 0⟩ (some "=SUM(A)")) meanwhile,
      .act .clearAll meanwhile, .logging (meanwhile 5),
      .act (.set ⟨0, 0⟩ (some " =MAX( a ) ")) meanwhile,
      .act (.calculate ⟨0, 0⟩ table none) meanwhile]
    let session := after ⟨.start true, reporter⟩ steps
    (reporter.log = some ⟨[], defaultTailBytes, .own⟩ ∧
      reporter.tree.contents (globalFile []) = [] ∧
      IsLogged ⟨.start true, reporter⟩ steps ∧
      ∀ cell text, .set cell text ∈ actions steps →
        (Action.trimmed text).length ≤ Redaction.keptLength) ∧
    ∃ values,
      valuesOf Limits.own.depth
        (lineTexts (session.reporter.tree.contents (globalFile []))) = .ok values ∧
      replay values = session.sheet.store.get? ∧
      session.sheet.store.entries = [(⟨0, 0⟩, "=MAX( a )")] := by
  intro reporter meanwhile table steps session
  have hfresh : reporter.tree.contents (globalFile []) = [] := by decide
  have hclocks : OnlyClocks meanwhile := fun _ _ => ⟨rfl, rfl⟩
  have hlogged : IsLogged ⟨.start true, reporter⟩ steps :=
    ⟨hclocks, by decide +kernel, by decide +kernel, hclocks, by decide +kernel, by decide +kernel,
      fun _ _ => ⟨rfl, rfl⟩, hclocks, by decide +kernel, by decide +kernel,
      hclocks, by decide +kernel, by decide +kernel, trivial⟩
  have hshort : ∀ cell text, .set cell text ∈ actions steps →
      (Action.trimmed text).length ≤ Redaction.keptLength := by
    simp only [steps, actions, List.mem_cons, List.not_mem_nil, Action.set.injEq, reduceCtorEq,
      false_or, or_false]
    rintro _ _ (⟨-, rfl⟩ | ⟨-, rfl⟩) <;> decide
  have hreplaced : ∀ cell, Action.wipedAfter (actions steps) cell = none := by
    intro cell
    by_cases hcell : cell = ⟨0, 0⟩
    · rw [hcell]
      decide
    · have hset : ∀ text formulas, (Action.set ⟨0, 0⟩ text).rebind formulas cell = formulas cell :=
        fun _ => Action.rebind_of_not_isAbout fun heq => hcell heq.symm
      simp [steps, actions, Action.wipedAfter, Action.wipeEach, Action.wipe, hset]
  obtain ⟨values, hvalues, -, hexact, -⟩ := replay_after true rfl hfresh hlogged hshort
  exact ⟨⟨rfl, hfresh, hlogged, hshort⟩, values, hvalues, hexact.mpr hreplaced, by decide +kernel⟩

/-- All formulas are taken away, and the log still tells of one. -/
theorem replay_after_clearAll :
    let reporter :=
      { Reporter.start .empty "2024" .zero with log := some ⟨[], defaultTailBytes, .own⟩ }
    let steps : List Step := [.act (.set ⟨0, 0⟩ (some "=SUM(A)")) fun _ => id,
      .act .clearAll fun _ => id]
    let session := after ⟨.start true, reporter⟩ steps
    (reporter.tree.contents (globalFile []) = [] ∧ IsLogged ⟨.start true, reporter⟩ steps ∧
      ∀ cell text, .set cell text ∈ actions steps →
        (Action.trimmed text).length ≤ Redaction.keptLength) ∧
    ¬ ∃ values,
      valuesOf Limits.own.depth
        (lineTexts (session.reporter.tree.contents (globalFile []))) = .ok values ∧
      replay values = session.sheet.store.get? := by
  intro reporter steps session
  have hfresh : reporter.tree.contents (globalFile []) = [] := by decide
  have hclocks : OnlyClocks fun _ => id := fun _ _ => ⟨rfl, rfl⟩
  have hlogged : IsLogged ⟨.start true, reporter⟩ steps :=
    ⟨hclocks, by decide +kernel, by decide +kernel, hclocks, by decide +kernel, by decide +kernel,
      trivial⟩
  have hshort : ∀ cell text, .set cell text ∈ actions steps →
      (Action.trimmed text).length ≤ Redaction.keptLength := by
    simp only [steps, actions, List.mem_cons, List.not_mem_nil, Action.set.injEq, reduceCtorEq,
      or_false]
    rintro _ _ ⟨-, rfl⟩
    decide
  refine ⟨⟨hfresh, hlogged, hshort⟩, ?_⟩
  rintro ⟨values, hvalues, hsame⟩
  obtain ⟨told, htold, hreplay⟩ := exists_values_after true rfl hfresh hlogged hshort
  obtain rfl := Except.ok.inj (htold.symm.trans hvalues)
  have hcell := congrFun (hreplay.symm.trans hsame) ⟨0, 0⟩
  revert hcell
  decide +kernel

end Session

end ColumnFormula
