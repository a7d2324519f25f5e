import Mathlib.Data.List.Forall2
import ColumnFormula.Proofs.Log.Records
import ColumnFormula.Proofs.Lookup
import ColumnFormula.Proofs.Sheet.Reports

/-!
# From reports to the log

A report that a log takes is written as one event: redacted, stamped, and for the rest as it was
reported. So while the log takes all that is reported, and nothing but clocks changes in the
meantime, the log is written as by one writer, an event for each report, in order.
-/

namespace ColumnFormula

/-! ## Flat contexts -/

/-- Whether a value is neither a list nor an object. -/
def Json.IsScalar : Json → Prop
  | .arr _ | .obj _ => False
  | _ => True

theorem Json.IsScalar.hasUniqueKeys {value : Json} (h : value.IsScalar) : value.HasUniqueKeys := by
  cases value with
  | arr items => exact h.elim
  | obj fields => exact h.elim
  | _ => trivial

theorem Json.fieldsHaveUniqueKeys_of_isScalar {fields : List (String × Json)}
    (h : ∀ field ∈ fields, field.2.IsScalar) : FieldsHaveUniqueKeys fields := by
  induction fields with
  | nil => trivial
  | cons field fields ih =>
      rw [List.forall_mem_cons] at h
      exact ⟨h.1.hasUniqueKeys, ih h.2⟩

namespace Redaction

theorem map_fst_redact (fields : List (String × Json)) :
    (redact fields).map Prod.fst = fields.map Prod.fst := by
  induction fields with
  | nil => rfl
  | cons field fields ih => rw [redact, List.map_cons, List.map_cons, ih]

theorem isScalar_redactValue {value : Json} (h : value.IsScalar) :
    (redactValue value).IsScalar := by
  cases value with
  | arr items => exact h.elim
  | obj fields => exact h.elim
  | _ => trivial

theorem isScalar_redact {fields : List (String × Json)} (h : ∀ field ∈ fields, field.2.IsScalar) :
    ∀ field ∈ redact fields, field.2.IsScalar := by
  induction fields with
  | nil => exact List.forall_mem_nil _
  | cons field fields ih =>
      rw [List.forall_mem_cons] at h
      rw [redact, List.forall_mem_cons]
      refine ⟨?_, ih h.2⟩
      dsimp only
      split
      · trivial
      · exact isScalar_redactValue h.1

/-- While a flat context is redacted, only one call stands in the first. -/
theorem calls_le_two {fields : List (String × Json)} (h : ∀ field ∈ fields, field.2.IsScalar) :
    calls fields ≤ 2 := by
  induction fields with
  | nil => exact Nat.le_succ 1
  | cons field fields ih =>
      rw [List.forall_mem_cons] at h
      have hvalue : callsForValue field.2 = 1 := by
        cases hfield : field.2 with
        | arr items => exact (hfield ▸ h.1).elim
        | obj fields => exact (hfield ▸ h.1).elim
        | _ => rfl
      rw [calls, hvalue]
      exact Nat.max_le.mpr ⟨by split <;> omega, ih h.2⟩

/-- Redaction leaves the keys of a context where they are. -/
theorem lookup_redact (fields : List (String × Json)) (key : String) :
    (redact fields).lookup key =
      (fields.lookup key).map fun value =>
        if isSensitive key then redactedMark else redactValue value := by
  induction fields with
  | nil => rfl
  | cons field fields ih =>
      obtain ⟨first, value⟩ := field
      rw [redact, lookup_cons_eq_ite, lookup_cons_eq_ite, ih]
      by_cases hkey : key = first
      · rw [if_pos hkey, if_pos hkey, hkey, Option.map_some]
      · rw [if_neg hkey, if_neg hkey]

theorem truncate_of_length_le {s : String} (h : s.toList.length ≤ keptLength) : truncate s = s := by
  rw [truncate, if_neg (Nat.not_lt.mpr h)]

end Redaction

/-! ## Written reports -/

/-- The value of a key in the context of an event. -/
def Event.said (event : Event) (key : String) : Option Json :=
  event.context.lookup key

/-- An event says what redaction leaves of the context of its report. -/
theorem Report.said_toEvent (now : String) (report : Report) (key : String) :
    (report.toEvent now (Redaction.redact report.context)).said key =
      (report.context.lookup key).map fun value =>
        if Redaction.isSensitive key then Redaction.redactedMark else Redaction.redactValue value :=
  Redaction.lookup_redact report.context key

/-- Whether an event, with the id of its calculation, is what a report is written as. -/
def Report.IsWrittenAs (report : Report) (entry : Event × Option String) : Prop :=
  entry.2 = report.calcId ∧ ∃ now fields, decodeFields report.encoded = some fields ∧
    entry.1 = report.toEvent now (Redaction.redact report.context ++ fields)

/-- A report without encoded fields is written with its context as redaction leaves it. -/
theorem Report.IsWrittenAs.eq_toEvent {report : Report} {entry : Event × Option String}
    (h : report.IsWrittenAs entry) (hencoded : report.encoded = []) :
    ∃ now, entry = (report.toEvent now (Redaction.redact report.context), report.calcId) := by
  obtain ⟨hid, now, fields, hfields, hevent⟩ := h
  rw [hencoded, decodeFields] at hfields
  obtain rfl := Option.some.inj hfields
  rw [List.append_nil] at hevent
  exact ⟨now, Prod.ext hevent hid⟩

/-- Whether the context of a report, with its encoded fields, is an object of scalar values under
different keys. -/
def Report.IsFlat (report : Report) : Prop :=
  (∀ field ∈ report.context, field.2.IsScalar) ∧
    (report.context.map Prod.fst ++ report.encoded.map Prod.fst).Nodup

/-- Within any limits there is room to redact a report. -/
theorem Report.IsFlat.redact?_context {report : Report} (h : report.IsFlat) (limits : Limits) :
    Redaction.redact? report.context limits.calls = some (Redaction.redact report.context) :=
  if_pos ((Redaction.calls_le_two h.1).trans limits.two_le)

theorem Report.decodeFields_eq_some {encoded : List (String × List UInt8)}
    {fields : List (String × Json)} (h : decodeFields encoded = some fields) :
    fields.map Prod.fst = encoded.map Prod.fst ∧ ∀ field ∈ fields, field.2.IsScalar := by
  induction encoded generalizing fields with
  | nil =>
      obtain rfl := Option.some.inj h
      exact ⟨rfl, List.forall_mem_nil _⟩
  | cons entry encoded ih =>
      rw [decodeFields] at h
      split at h
      next s rest _ hrest =>
        obtain rfl := Option.some.inj h
        obtain ⟨hkeys, hscalar⟩ := ih hrest
        exact ⟨by rw [List.map_cons, List.map_cons, hkeys],
          List.forall_mem_cons.mpr ⟨trivial, hscalar⟩⟩
      next => cases h

/-- The event of a flat report can be read back. -/
theorem Report.IsWrittenAs.hasUniqueKeys {report : Report} {entry : Event × Option String}
    (h : report.IsWrittenAs entry) (hflat : report.IsFlat) : entry.1.HasUniqueKeys := by
  obtain ⟨-, now, fields, hfields, hevent⟩ := h
  obtain ⟨hkeys, hscalar⟩ := decodeFields_eq_some hfields
  rw [hevent, Event.HasUniqueKeys]
  refine ⟨?_, Json.fieldsHaveUniqueKeys_of_isScalar ?_⟩
  · rw [toEvent, List.map_append, Redaction.map_fst_redact, hkeys]
    exact hflat.2
  · exact List.forall_mem_append.mpr ⟨Redaction.isScalar_redact hflat.1, hscalar⟩

theorem Report.hasUniqueKeys_of_forall₂ {reports : List Report}
    {entries : List (Event × Option String)} (hflat : ∀ report ∈ reports, report.IsFlat)
    (h : List.Forall₂ IsWrittenAs reports entries) : ∀ entry ∈ entries, entry.1.HasUniqueKeys := by
  induction h with
  | nil => exact List.forall_mem_nil _
  | cons hentry _ ih =>
      rw [List.forall_mem_cons] at hflat ⊢
      exact ⟨hentry.hasUniqueKeys hflat.1, ih hflat.2⟩

namespace Sheet

variable {sheet : Sheet} {report : Report}

theorem isFlat_of_outcome {integerResults : Bool} {formula : RawText} {table : Table}
    {context : List (String × Json)} {calcId : Option String} {outcome : Outcome}
    (hcontext : context = [] ∨ ∃ cell, context = cellContext cell)
    (h : Sheet.outcome integerResults formula table context calcId = .ok (outcome, report)) :
    report.IsFlat := by
  unfold Sheet.outcome at h
  split at h
  · obtain ⟨-, rfl⟩ := Prod.mk.inj (Except.ok.inj h)
    rcases hcontext with rfl | ⟨cell, rfl⟩ <;> cases formula <;>
      simp [Report.IsFlat, failureReport, cellContext, formulaContext, encodedContext,
        Json.IsScalar]
  · split at h
    · obtain ⟨-, rfl⟩ := Prod.mk.inj (Except.ok.inj h)
      rcases hcontext with rfl | ⟨cell, rfl⟩ <;> cases formula <;>
        simp [Report.IsFlat, resultReport, cellContext, formulaContext, encodedContext,
          Json.IsScalar]
    · cases h

theorem IsOfCalculation.isFlat (h : sheet.IsOfCalculation report) : report.IsFlat := by
  cases h with
  | @cell cell table calcId outcome _ hcalc =>
      unfold calculate at hcalc
      split at hcalc
      · obtain ⟨-, rfl⟩ := Prod.mk.inj (Except.ok.inj hcalc)
        simp [Report.IsFlat, noFormulaReport, cellContext, Json.IsScalar]
      · exact isFlat_of_outcome (.inr ⟨cell, rfl⟩) hcalc
  | formula hcalc => exact isFlat_of_outcome (.inl rfl) hcalc
  | start calcId cells => simp [Report.IsFlat, startReport, Json.IsScalar]
  | finish calcId cells failed => simp [Report.IsFlat, endReport, Json.IsScalar]

theorem isFlat_setReport (cell : CellRef) (formula : String) : (setReport cell formula).IsFlat := by
  simp [Report.IsFlat, setReport, cellContext, Json.IsScalar]

theorem isFlat_clearReport (cell : CellRef) : (clearReport cell).IsFlat := by
  simp [Report.IsFlat, clearReport, cellContext, Json.IsScalar]

end Sheet

namespace Reporter

variable {reporter : Reporter} {report : Report}

/-- The event that a report is written as, if its encoded fields encode texts. -/
def eventOf? (reporter : Reporter) (report : Report) : Option Event :=
  (Report.decodeFields report.encoded).map fun fields =>
    report.toEvent reporter.now (Redaction.redact report.context ++ fields)

/-- Whether a report gets into a log: one is attached, and it takes the event. -/
def accepts (reporter : Reporter) (report : Report) : Bool :=
  match reporter.log, reporter.eventOf? report with
  | some log, some event => (log.write event report.calcId reporter.tree).2.isNone
  | _, _ => false

/-- A report that gets into the log changes its files and nothing else. -/
theorem report_of_accepts {log : Log} (hlog : reporter.log = some log)
    (h : reporter.accepts report = true) :
    ∃ event written, report.IsWrittenAs (event, report.calcId) ∧
      log.write event report.calcId reporter.tree = (written, none) ∧
      reporter.report report = { reporter with tree := written } := by
  unfold accepts eventOf? at h
  rw [hlog] at h
  unfold Reporter.report
  cases hfields : Report.decodeFields report.encoded with
  | none => simp [hfields] at h
  | some fields =>
      rw [hfields] at h
      dsimp only [Option.map] at h ⊢
      generalize hevent : report.toEvent reporter.now (Redaction.redact report.context ++ fields) =
        event at h ⊢
      obtain ⟨written, hwrite⟩ :
          ∃ written, log.write event report.calcId reporter.tree = (written, none) :=
        ⟨_, Prod.ext rfl (Option.isNone_iff_eq_none.mp h)⟩
      refine ⟨event, written, ⟨rfl, reporter.now, fields, hfields, hevent.symm⟩, hwrite, ?_⟩
      rw [Reporter.write, hlog]
      dsimp only
      rw [hwrite]

end Reporter

namespace Session

open Reporter

/-- Whether nothing happens to logging in the meantime but that clocks are set or run on. -/
def OnlyClocks (meanwhile : Nat → Reporter → Reporter) : Prop :=
  ∀ n reporter, (meanwhile n reporter).tree = reporter.tree ∧
    (meanwhile n reporter).log = reporter.log

/-- Whether all of some reports get into the log. -/
def acceptsEach (meanwhile : Nat → Reporter → Reporter) : List Report → Nat × Reporter → Bool
  | [], _ => true
  | report :: reports, state =>
    (meanwhile state.1 state.2).accepts report &&
      acceptsEach meanwhile reports (reportAmid meanwhile state report)

/-- Reports that get into the log are written one after the other. -/
theorem exists_writeEach {meanwhile : Nat → Reporter → Reporter} (hclocks : OnlyClocks meanwhile)
    {reports : List Report} {state : Nat × Reporter} {log : Log} (hlog : state.2.log = some log)
    (h : acceptsEach meanwhile reports state = true) :
    ∃ entries, List.Forall₂ Report.IsWrittenAs reports entries ∧
      log.writeEach entries state.2.tree =
        some (reports.foldl (reportAmid meanwhile) state).2.tree ∧
      (reports.foldl (reportAmid meanwhile) state).2.log = some log := by
  induction reports generalizing state with
  | nil => exact ⟨[], .nil, rfl, hlog⟩
  | cons report reports ih =>
      obtain ⟨htree, hsame⟩ := hclocks state.1 state.2
      rw [acceptsEach, Bool.and_eq_true] at h
      obtain ⟨event, written, hevent, hwrite, hreport⟩ :=
        report_of_accepts (hsame.trans hlog) h.1
      have hstate : reportAmid meanwhile state report =
          (state.1 + 1, { meanwhile state.1 state.2 with tree := written }) := by
        rw [reportAmid, hreport]
      rw [List.foldl_cons, hstate]
      rw [hstate] at h
      obtain ⟨entries, hentries, hrest, hafter⟩ := ih (hsame.trans hlog) h.2
      refine ⟨(event, report.calcId) :: entries, .cons hevent hentries, ?_, hafter⟩
      rw [htree] at hwrite
      rw [Log.writeEach, hwrite]
      exact hrest

/-- Whether all reports of an action get into the log. -/
def accepts (session : Session) (meanwhile : Nat → Reporter → Reporter) (action : Action) : Bool :=
  acceptsEach meanwhile (session.sheet.reports action) (0, session.reporter)

/-- What an action reports is what is written while it is performed. -/
theorem exists_writeEach_performAmid {session : Session} {meanwhile : Nat → Reporter → Reporter}
    {action : Action} {log : Log} (hclocks : OnlyClocks meanwhile)
    (hlog : session.reporter.log = some log) (h : session.accepts meanwhile action = true) :
    ∃ entries, List.Forall₂ Report.IsWrittenAs (session.sheet.reports action) entries ∧
      log.writeEach entries session.reporter.tree =
        some (session.performAmid meanwhile action).1.reporter.tree ∧
      (session.performAmid meanwhile action).1.reporter.log = some log := by
  have hreporter : (session.performAmid meanwhile action).1.reporter =
      ((session.sheet.reports action).foldl (reportAmid meanwhile) (0, session.reporter)).2 :=
    congrArg Prod.snd (Sheet.receiver_perform (reportAmid meanwhile) (0, session.reporter) action)
  rw [hreporter]
  exact exists_writeEach hclocks hlog h

end Session

end ColumnFormula
