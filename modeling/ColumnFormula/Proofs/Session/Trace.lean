import ColumnFormula.Event.Stamp
import ColumnFormula.Proofs.Log.RoundTrip
import ColumnFormula.Proofs.Number.Length
import ColumnFormula.Proofs.Session.Reporting

/-!
# The trace of a recalculation

A recalculation leaves a complete trace. If its log takes all that is reported, the lines that it
adds are the event of its beginning, one event for each cell, in order, that tells the text of
the cell, and the event of its end; the file of its calculation id holds the same lines.
-/

namespace ColumnFormula

namespace Event

/-- Whether an event tells the text of a cell: as its result, or as the message of a failure. -/
def TellsOf (entry : CellRef × String) (event : Event) : Prop :=
  event.said "row" = some (.int entry.1.row) ∧ event.said "col" = some (.int entry.1.col) ∧
    (event.kind = .formulaCalculated ∧ event.level = .info ∧
        event.said "result" = some (.str entry.2) ∨
      event.kind = .formulaFailed ∧ event.level = .warning ∧ event.message = entry.2)

/-- Whether some events are the trace of a recalculation with these texts. -/
def IsTrace (texts : List (CellRef × String)) (events : List Event) : Prop :=
  ∃ first middle last, events = first :: middle ++ [last] ∧
    (first.kind = .recalcStarted ∧ first.said "cells" = some (.int texts.length)) ∧
    List.Forall₂ TellsOf texts middle ∧
    (last.kind = .recalcCompleted ∧ last.said "cells" = some (.int texts.length) ∧
      last.said "failed" = some (.int (middle.countP (·.kind = .formulaFailed))))

end Event

namespace Sheet

variable {sheet : Sheet} {table : Table} {cell : CellRef} {cells : List CellRef}
  {outcome : Outcome} {report : Report}

/-! ## One cell -/

/-- What is known of the report of a calculation: it is that of a failure, with the text for its
message, or that of a short result. -/
theorem calculate_cases {calcId : Option String} (hcount : table.IsCountable)
    (h : sheet.calculate cell table calcId = .ok (outcome, report)) :
    report.calcId = calcId ∧ report.encoded = [] ∧
    report.context.lookup "row" = some (.int cell.row) ∧
    report.context.lookup "col" = some (.int cell.col) ∧
    (outcome.isOk = true ∧ report.kind = .formulaCalculated ∧ report.level = .info ∧
        report.context.lookup "result" = some (.str outcome.text) ∧
        outcome.text.toList.length ≤ Redaction.keptLength ∨
      outcome.isOk = false ∧ report.kind = .formulaFailed ∧ report.level = .warning ∧
        report.message = outcome.text) := by
  unfold calculate at h
  split at h
  · obtain ⟨rfl, rfl⟩ := Prod.mk.inj (Except.ok.inj h)
    exact ⟨rfl, rfl, rfl, rfl, .inr ⟨rfl, rfl, rfl, rfl⟩⟩
  next formula _ =>
    unfold Sheet.outcome at h
    split at h
    · obtain ⟨rfl, rfl⟩ := Prod.mk.inj (Except.ok.inj h)
      exact ⟨rfl, rfl, rfl, rfl, .inr ⟨rfl, rfl, rfl, rfl⟩⟩
    next evaluation heval =>
      split at h
      next text hdisplay =>
        obtain ⟨rfl, rfl⟩ := Prod.mk.inj (Except.ok.inj h)
        obtain ⟨column, hcolumn, happly⟩ := exists_column_of_evaluate heval
        have hlength : text.toList.length ≤ 41 :=
          Aggregate.length_display_le happly (by simpa using hcount column hcolumn) hdisplay
        exact ⟨rfl, rfl, rfl, rfl, .inl ⟨rfl, rfl, rfl, rfl, Nat.le_trans hlength (by decide)⟩⟩
      next => cases h

/-- The event of a calculated cell tells of the text that the cell shows. -/
theorem tellsOf_of_calculate {calcId : Option String} {entry : Event × Option String}
    (hcount : table.IsCountable) (h : sheet.calculate cell table calcId = .ok (outcome, report))
    (hentry : report.IsWrittenAs entry) :
    entry.2 = calcId ∧ entry.1.TellsOf (cell, outcome.text) ∧
      (entry.1.kind = .formulaFailed ↔ outcome.isOk = false) := by
  obtain ⟨hid, hencoded, hrow, hcol, hcases⟩ := calculate_cases hcount h
  obtain ⟨now, rfl⟩ := hentry.eq_toEvent hencoded
  refine ⟨hid, ⟨?_, ?_, ?_⟩, ?_⟩
  · rw [Report.said_toEvent, hrow]
    rfl
  · rw [Report.said_toEvent, hcol]
    rfl
  · rcases hcases with ⟨-, hkind, hlevel, hresult, hlength⟩ | ⟨-, hkind, hlevel, hmessage⟩
    · refine .inl ⟨hkind, hlevel, ?_⟩
      rw [Report.said_toEvent, hresult]
      exact congrArg (some ∘ Json.str) (Redaction.truncate_of_length_le hlength)
    · exact .inr ⟨hkind, hlevel, hmessage⟩
  · change report.kind = .formulaFailed ↔ _
    rcases hcases with ⟨hok, hkind, -⟩ | ⟨hfailed, hkind, -⟩
    · simp [hok, hkind]
    · simp [hfailed, hkind]

/-! ## All cells -/

theorem exists_concat_of_forall₂ {α β : Type} {R : α → β → Prop} {xs : List α} {x : α} {ys : List β}
    (h : List.Forall₂ R (xs ++ [x]) ys) :
    ∃ front last, ys = front ++ [last] ∧ List.Forall₂ R xs front ∧ R x last := by
  rw [← List.forall₂_reverse_iff, List.reverse_concat] at h
  obtain ⟨last, front, hlast, hfront, heq⟩ := List.forall₂_cons_left_iff.mp h
  refine ⟨front.reverse, last, ?_, ?_, hlast⟩
  · rw [← List.reverse_cons, ← heq, List.reverse_reverse]
  · rwa [← List.forall₂_reverse_iff, List.reverse_reverse]

/-- The events of the cells of a pass, one for each. -/
theorem forall₂_tellsOf {calcId : String} {results : List (Outcome × Report)}
    {entries : List (Event × Option String)} (hcount : table.IsCountable)
    (h : sheet.Results table calcId cells results)
    (hentries : List.Forall₂ Report.IsWrittenAs (results.map (·.2)) entries) :
    (∀ entry ∈ entries, entry.2 = some calcId) ∧
      List.Forall₂ Event.TellsOf (cells.zip (results.map (·.1.text))) (entries.map Prod.fst) ∧
      (entries.map Prod.fst).countP (·.kind = .formulaFailed) = results.countP (!·.1.isOk) := by
  induction h generalizing entries with
  | nil =>
      cases hentries
      exact ⟨nofun, .nil, rfl⟩
  | cons hresult _ ih =>
      obtain ⟨entry, entries, hentry, hrest, rfl⟩ := List.forall₂_cons_left_iff.mp hentries
      obtain ⟨hid, htells, hfailed⟩ := tellsOf_of_calculate hcount hresult hentry
      obtain ⟨hids, hall, hcountP⟩ := ih hrest
      refine ⟨List.forall_mem_cons.mpr ⟨hid, hids⟩, .cons htells hall, ?_⟩
      rw [List.map_cons, List.countP_cons, List.countP_cons, hcountP]
      simp [hfailed]

/-- What is written of a recalculation that nobody objects to is its trace. -/
theorem isTrace_of_results {calcId : String} {results : List (Outcome × Report)}
    {entries : List (Event × Option String)} (hcount : table.IsCountable)
    (h : sheet.Results table calcId cells results)
    (hentries : List.Forall₂ Report.IsWrittenAs
      (startReport calcId cells.length :: results.map (·.2) ++
        [endReport calcId cells.length (results.countP (!·.1.isOk))]) entries) :
    (∀ entry ∈ entries, entry.2 = some calcId) ∧
      Event.IsTrace (cells.zip (results.map (·.1.text))) (entries.map Prod.fst) := by
  have hlength : (cells.zip (results.map (·.1.text))).length = cells.length := by
    rw [List.length_zip, List.length_map, ← h.length_eq, Nat.min_self]
  obtain ⟨front, last, rfl, hfront, hlast⟩ := exists_concat_of_forall₂ hentries
  obtain ⟨first, middle, hfirst, hmiddle, rfl⟩ := List.forall₂_cons_left_iff.mp hfront
  obtain ⟨hids, htells, hfailed⟩ := forall₂_tellsOf hcount h hmiddle
  obtain ⟨now, rfl⟩ := hfirst.eq_toEvent rfl
  obtain ⟨later, rfl⟩ := hlast.eq_toEvent rfl
  constructor
  · intro entry hentry
    rcases List.mem_append.mp hentry with hentry | hentry
    · rcases List.mem_cons.mp hentry with rfl | hentry
      · rfl
      · exact hids entry hentry
    · rw [List.mem_singleton.mp hentry]
      rfl
  · refine ⟨_, _, _, List.map_append, ⟨rfl, ?_⟩, htells, rfl, ?_, ?_⟩
    · rw [hlength]
      rfl
    · rw [hlength]
      rfl
    · rw [hfailed]
      rfl

end Sheet

namespace Session

open Log Sheet

/-! ## The id of a recalculation -/

theorem isIdChar_digitChar {n : Nat} (h : n < 16) : isIdChar (Nat.digitChar n) = true := by
  revert n
  decide

theorem isIdChar_of_mem_hexDigits {width n : Nat} {c : Char} (h : c ∈ Text.hexDigits width n) :
    isIdChar c = true := by
  induction width generalizing n with
  | zero => cases h
  | succ width ih =>
      rw [Text.hexDigits, List.mem_append] at h
      rcases h with h | h
      · exact ih h
      · rw [List.mem_singleton.mp h]
        exact isIdChar_digitChar (Nat.mod_lt n (by decide))

theorem isSafeId_calcIdOf (number : Nat) : isSafeId (calcIdOf number) = true := by
  apply isSafeId_of_isIdChar
  · intro heq
    rw [calcIdOf, String.ofList_eq_empty_iff] at heq
    exact List.append_ne_nil_of_right_ne_nil _ (List.cons_ne_nil _ _) heq
  · rw [calcIdOf, String.toList_ofList]
    exact fun c => isIdChar_of_mem_hexDigits

/-- A recalculation leaves a complete trace. If nobody objects and the log takes all that is
reported, under an id that has no lines yet, then the selected cells ascend, the answer has one
text for each of them, and the lines that are added to the global file are the trace of these
texts; they are also all the lines of the file of the id. -/
theorem recalculation_trace {session : Session} {meanwhile : Nat → Reporter → Reporter}
    {action : Action} {cells : List CellRef} {table : Table} {log : Log}
    (hselect : session.sheet.selection? action = some (cells, table))
    (hquiet : session.sheet.IsQuiet) (hcount : table.IsCountable)
    (hlog : session.reporter.log = some log) (hclocks : OnlyClocks meanwhile)
    (haccepts : session.accepts meanwhile action = true)
    (hfresh : session.reporter.tree.contents
      (calcFile log.folder (calcIdOf (session.sheet.recalculations + 1))) = []) :
    cells.Pairwise (· < ·) ∧ ∃ texts events,
      (session.performAmid meanwhile action).2.1 = .texts texts ∧ texts.map Prod.fst = cells ∧
      Event.IsTrace texts events ∧
      (session.performAmid meanwhile action).1.reporter.tree.contents (globalFile log.folder) =
        session.reporter.tree.contents (globalFile log.folder) ++ events.flatMap lineBytes ∧
      (session.performAmid meanwhile action).1.reporter.tree.contents
          (calcFile log.folder (calcIdOf (session.sheet.recalculations + 1))) =
        events.flatMap lineBytes := by
  refine ⟨pairwise_of_selection? hselect, ?_⟩
  obtain ⟨results, hresults⟩ : ∃ results, session.sheet.Results table
      (calcIdOf (session.sheet.recalculations + 1)) cells results :=
    exists_results hcount _ cells
  obtain ⟨entries, hentries, hwrite, -⟩ := exists_writeEach_performAmid hclocks hlog haccepts
  have hreports := (recalculate_of_results (σ := Unit) hquiet hselect hresults).2
  rw [hreports] at hentries
  obtain ⟨hids, htrace⟩ := isTrace_of_results hcount hresults hentries
  have hsafe := isSafeId_calcIdOf (session.sheet.recalculations + 1)
  -- Every event goes to both files, so none is filtered out.
  have hfiles : ∀ path, (∀ id, id = some (calcIdOf (session.sheet.recalculations + 1)) →
      path ∈ log.targets id) → log.IsFile path →
      (session.performAmid meanwhile action).1.reporter.tree.contents path =
        session.reporter.tree.contents path ++ (entries.map Prod.fst).flatMap lineBytes := by
    intro path hmem hpath
    have hall : entries.filter (path ∈ log.targets ·.2) = entries := by
      rw [List.filter_eq_self]
      exact fun entry hentry => decide_eq_true (hmem entry.2 (hids entry hentry))
    rw [contents_writeEach hpath hwrite, hall, List.flatMap_map]
  refine ⟨_, entries.map Prod.fst, ?_, ?_, htrace, ?_, ?_⟩
  · exact (recalculate_of_results hquiet hselect hresults).1 (reportAmid meanwhile) _
  · apply List.map_fst_zip
    rw [List.length_map, hresults.length_eq]
  · exact hfiles _ (fun id _ => log.globalFile_mem_targets id) (.inl rfl)
  · rw [hfiles _ (fun id => (calcFile_mem_targets_iff hsafe).mpr) (.inr ⟨_, hsafe, rfl⟩), hfresh,
      List.nil_append]

/-- One of two dependents has a result, and the other fails; a third formula is not selected. -/
theorem recalculation_trace_dependents :
    let session : Session := ⟨{ Sheet.start true with
        store := ((FormulaStore.empty.insert ⟨1, 0⟩ "=MAX( a )").insert ⟨0, 3⟩ "=F(A)").insert
          ⟨0, 0⟩ "=SUM(B)"
        listeners := [⟨"view", fun _ => false⟩] },
      { Reporter.start .empty "2024" .zero with log := some ⟨[], defaultTailBytes, .own⟩ }⟩
    let table : Table := ⟨[⟨"A", [some "1", some "2.5", none]⟩]⟩
    let meanwhile : Nat → Reporter → Reporter := fun n reporter =>
      { reporter with now := Stamp.ofMicroseconds n, clock := .ofNat n }
    (session.sheet.selection? (.recalculateDependents 0 table) =
        some ([⟨0, 3⟩, ⟨1, 0⟩], table) ∧
      session.sheet.IsQuiet ∧ table.IsCountable ∧
      session.reporter.log = some ⟨[], defaultTailBytes, .own⟩ ∧ OnlyClocks meanwhile ∧
      session.accepts meanwhile (.recalculateDependents 0 table) = true ∧
      session.reporter.tree.contents (calcFile [] (calcIdOf 1)) = []) ∧
    ∃ texts events,
      (session.performAmid meanwhile (.recalculateDependents 0 table)).2.1 = .texts texts ∧
      texts.map Prod.fst = [⟨0, 3⟩, ⟨1, 0⟩] ∧ Event.IsTrace texts events ∧
      (session.performAmid meanwhile (.recalculateDependents 0 table)).1.reporter.tree.contents
        (calcFile [] (calcIdOf 1)) = events.flatMap lineBytes := by
  intro session table meanwhile
  have hselect : session.sheet.selection? (.recalculateDependents 0 table) =
      some ([⟨0, 3⟩, ⟨1, 0⟩], table) := by decide
  have hquiet : session.sheet.IsQuiet := by simp [IsQuiet, session]
  have hcount : table.IsCountable := by
    unfold Table.IsCountable
    decide
  have hclocks : OnlyClocks meanwhile := fun _ _ => ⟨rfl, rfl⟩
  have haccepts : session.accepts meanwhile (.recalculateDependents 0 table) = true := by
    decide +kernel
  have hfresh : session.reporter.tree.contents (calcFile [] (calcIdOf 1)) = [] := by decide
  obtain ⟨-, texts, events, hanswer, hcells, htrace, -, hcalc⟩ :=
    recalculation_trace hselect hquiet hcount rfl hclocks haccepts hfresh
  exact ⟨⟨hselect, hquiet, hcount, rfl, hclocks, haccepts, hfresh⟩,
    texts, events, hanswer, hcells, htrace, hcalc⟩

end Session

end ColumnFormula
