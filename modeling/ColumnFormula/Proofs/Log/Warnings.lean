import Mathlib.Tactic.Linarith
import ColumnFormula.Proofs.Log.AppendOnly
import ColumnFormula.Proofs.Number.Difference

/-!
# Warnings of a reporter

A report that fails gives a warning exactly if a minute has passed since the last one, and, before
there is one, since the clock showed zero. So warnings are a minute apart, however many reports
fail and whenever they do, and none is held back for another cause. The times are those of the
clock itself: no difference that is less than a minute is rounded.
-/

namespace ColumnFormula.Reporter

/-! ## Reports that fail -/

/-- Whether an event is refused by the log that is attached. -/
def Refuses (refusal : Path → Option FileError) (reporter : Reporter) (event : Event)
    (calcId : Option String) : Prop :=
  ∃ log, reporter.log = some log ∧ (log.writeAmid refusal event calcId reporter.tree).2 ≠ none

/-- Whether a call is a report that fails. -/
def Fails (refusal : Path → Option FileError) (reporter : Reporter) : Call → Prop
  | .emit event calcId =>
    ∃ log, reporter.log = some log ∧
      ∀ context ∈ Redaction.redact? event.context log.limits.calls,
        reporter.Refuses refusal { event with context } calcId
  | .report report =>
    match Report.decodeFields report.encoded with
    | some fields =>
      reporter.Refuses refusal
        (report.toEvent reporter.now (Redaction.redact report.context ++ fields)) report.calcId
    | none => reporter.log ≠ none
  | _ => False

/-- What the clock shows after a call. -/
def Call.clockAfter (clock : Binary64) : Call → Binary64
  | .pass _ later => later
  | _ => clock

/-- Whether a clock shows finite times and never runs back. -/
def RunsForward (clock : Binary64) : List (Call × (Path → Option FileError)) → Prop
  | [] => True
  | (call, _) :: calls =>
    (call.clockAfter clock).isFinite = true ∧ clock.toRat ≤ (call.clockAfter clock).toRat ∧
      RunsForward (call.clockAfter clock) calls

/-- The times at which a call gives a warning. -/
def warned (folder : Path) (refusal : Path → Option FileError) (reporter : Reporter)
    (call : Call) : List Binary64 :=
  if (reporter.call folder refusal call).warnings = reporter.warnings then []
  else [reporter.clock]

/-- The times at which some calls give warnings. -/
def warnedEach (folder : Path) (reporter : Reporter) :
    List (Call × (Path → Option FileError)) → List Binary64
  | [] => []
  | (call, refusal) :: calls =>
    reporter.warned folder refusal call ++
      (reporter.call folder refusal call).warnedEach folder calls

/-- Whether a minute has passed since the clock showed zero, and since each of some times. -/
def IsDue (clock : Binary64) (given : List Binary64) : Prop :=
  60 ≤ clock.toRat ∧ ∀ time ∈ given, 60 ≤ clock.toRat - time.toRat

variable {folder : Path} {refusal : Path → Option FileError} {reporter : Reporter}
  {event : Event} {calcId : Option String}

theorem writeAmid_of_refuses (h : reporter.Refuses refusal event calcId) :
    ∃ tree, reporter.writeAmid refusal event calcId = { reporter with tree }.warn := by
  obtain ⟨log, hlog, herror⟩ := h
  rw [writeAmid, hlog]
  dsimp only
  split
  next heq => exact absurd (congrArg Prod.snd heq) herror
  next tree error heq => exact ⟨tree, rfl⟩

theorem writeAmid_of_not_refuses (h : ¬ reporter.Refuses refusal event calcId) :
    ∃ tree, reporter.writeAmid refusal event calcId = { reporter with tree } := by
  rw [writeAmid]
  split
  next => exact ⟨reporter.tree, rfl⟩
  next log hlog =>
    split
    next tree heq => exact ⟨tree, rfl⟩
    next tree error heq =>
      exact absurd ⟨log, hlog, fun hnone => by rw [heq] at hnone; cases hnone⟩ h

theorem clock_warn (reporter : Reporter) : reporter.warn.clock = reporter.clock := by
  unfold warn
  split <;> rfl

theorem clock_writeAmid (refusal : Path → Option FileError) (reporter : Reporter) (event : Event)
    (calcId : Option String) :
    (reporter.writeAmid refusal event calcId).clock = reporter.clock := by
  by_cases h : reporter.Refuses refusal event calcId
  · obtain ⟨tree, hwrite⟩ := writeAmid_of_refuses h
    rw [hwrite, clock_warn]
  · obtain ⟨tree, hwrite⟩ := writeAmid_of_not_refuses h
    rw [hwrite]

theorem exists_call_attach (folder : Path) (refusal : Path → Option FileError)
    (reporter : Reporter) (tailBytes : Option Int) (limits : Limits) :
    ∃ tree log, reporter.call folder refusal (.attach tailBytes limits) =
      { reporter with tree, log } := by
  rw [Reporter.call, attach]
  cases Log.create reporter.tree folder tailBytes limits with
  | ok created => exact ⟨created.1, some created.2, rfl⟩
  | error error => exact ⟨reporter.tree, reporter.log, rfl⟩

/-- Only the passing of time moves the clock. -/
theorem clock_call (folder : Path) (refusal : Path → Option FileError) (reporter : Reporter)
    (call : Call) : (reporter.call folder refusal call).clock = call.clockAfter reporter.clock := by
  cases call with
  | attach tailBytes limits =>
      obtain ⟨tree, log, hcall⟩ := exists_call_attach folder refusal reporter tailBytes limits
      rw [hcall]
      rfl
  | detach => rfl
  | pass now clock => rfl
  | write tailBytes event calcId limits => rfl
  | emit event calcId =>
      rw [Reporter.call]
      rcases reporter.emitAmid_cases refusal event calcId with
        ⟨-, hemit⟩ | ⟨log, -, ⟨context, -, hemit⟩ | ⟨-, hemit⟩⟩
      · rw [hemit]
        rfl
      · rw [hemit]
        exact clock_writeAmid refusal reporter _ calcId
      · rw [hemit]
        exact clock_warn reporter
  | report report =>
      rw [Reporter.call, reportAmid]
      split
      next => exact clock_writeAmid refusal reporter _ _
      next =>
        split
        · rfl
        · exact clock_warn reporter

/-- A report that fails gives a warning if none is too recent. -/
theorem call_of_fails (folder : Path) {call : Call} (h : reporter.Fails refusal call) :
    ∃ tree, reporter.call folder refusal call = { reporter with tree }.warn := by
  cases call with
  | emit event calcId =>
      obtain ⟨log, hlog, hrefuses⟩ := h
      rw [Reporter.call]
      rcases reporter.emitAmid_cases refusal event calcId with
        ⟨hnone, -⟩ | ⟨other, hother, ⟨context, hcontext, hemit⟩ | ⟨-, hemit⟩⟩
      · rw [hnone] at hlog
        cases hlog
      · obtain rfl := Option.some.inj (hlog.symm.trans hother)
        rw [hemit]
        exact writeAmid_of_refuses (hrefuses context hcontext)
      · rw [hemit]
        exact ⟨reporter.tree, rfl⟩
  | report report =>
      rw [Fails] at h
      cases hfields : Report.decodeFields report.encoded with
      | some fields =>
          rw [hfields] at h
          rw [Reporter.call, reportAmid, hfields]
          exact writeAmid_of_refuses h
      | none =>
          rw [hfields] at h
          rw [Reporter.call, reportAmid, hfields]
          exact ⟨reporter.tree, if_neg (by rwa [Option.isNone_iff_eq_none])⟩
  | _ => exact h.elim

/-- Nothing else touches what is known of warnings. -/
theorem call_of_not_fails {call : Call} (h : ¬ reporter.Fails refusal call) :
    (reporter.call folder refusal call).warnings = reporter.warnings ∧
      (reporter.call folder refusal call).lastWarning = reporter.lastWarning := by
  cases call with
  | attach tailBytes limits =>
      obtain ⟨tree, log, hcall⟩ := exists_call_attach folder refusal reporter tailBytes limits
      rw [hcall]
      exact ⟨rfl, rfl⟩
  | emit event calcId =>
      rw [Reporter.call]
      rcases reporter.emitAmid_cases refusal event calcId with
        ⟨-, hemit⟩ | ⟨log, hlog, ⟨context, hcontext, hemit⟩ | ⟨hnone, -⟩⟩
      · rw [hemit]
        exact ⟨rfl, rfl⟩
      · have hwrites : ¬ reporter.Refuses refusal { event with context } calcId := by
          intro hrefuses
          refine h ⟨log, hlog, fun other hother => ?_⟩
          obtain rfl := Option.some.inj (hcontext.symm.trans hother)
          exact hrefuses
        obtain ⟨tree, hwrite⟩ := writeAmid_of_not_refuses hwrites
        rw [hemit, hwrite]
        exact ⟨rfl, rfl⟩
      · -- An event that cannot be redacted fails.
        refine absurd ⟨log, hlog, fun context hcontext => ?_⟩ h
        rw [hnone] at hcontext
        cases hcontext
  | report report =>
      rw [Fails] at h
      cases hfields : Report.decodeFields report.encoded with
      | some fields =>
          rw [hfields] at h
          obtain ⟨tree, hwrite⟩ := writeAmid_of_not_refuses h
          rw [Reporter.call, reportAmid, hfields]
          dsimp only
          rw [hwrite]
          exact ⟨rfl, rfl⟩
      | none =>
          rw [hfields] at h
          rw [Reporter.call, reportAmid, hfields]
          exact ⟨by rw [not_not.mp h]; rfl, by rw [not_not.mp h]; rfl⟩
  | _ => exact ⟨rfl, rfl⟩

/-! ## The time of the last warning -/

/-- What a reporter knows when warnings were given at some times: the latest of these, or zero
before there is one. As there is none before the clock shows a minute, the two cannot be
confused. -/
structure Paced (reporter : Reporter) (given : List Binary64) : Prop where
  isFinite_clock : reporter.clock.isFinite = true
  isFinite_last : reporter.lastWarning.isFinite = true
  last_le_clock : reporter.lastWarning.toRat ≤ reporter.clock.toRat
  last_eq : given = [] ∧ reporter.lastWarning.toRat = 0 ∨
    60 ≤ reporter.lastWarning.toRat ∧ reporter.lastWarning ∈ given
  le_last : ∀ time ∈ given, time.toRat ≤ reporter.lastWarning.toRat
  apart : given.Pairwise fun earlier later => 60 ≤ later.toRat - earlier.toRat
  length_eq : reporter.warnings = given.length

variable {given : List Binary64}

theorem toRat_quietSeconds : quietSeconds.toRat = 60 := by
  rw [quietSeconds, Binary64.toRat_ofNat (by decide)]
  rfl

/-- The stored time decides, without rounding, whether a warning is due. -/
theorem Paced.due_iff (h : reporter.Paced given) :
    ¬ (reporter.clock.sub reporter.lastWarning).lt quietSeconds = true ↔
      IsDue reporter.clock given := by
  have hquiet : quietSeconds.isFinite = true :=
    Binary64.isFinite_ofNat (by decide : 60 < Nat.pow 2 6) (by decide)
  have htaken : reporter.lastWarning.toRat = 0 ∨
      quietSeconds.toRat ≤ reporter.lastWarning.toRat := by
    rw [toRat_quietSeconds]
    exact h.last_eq.imp And.right And.left
  rw [Binary64.sub_lt_iff h.isFinite_clock h.isFinite_last hquiet h.last_le_clock
    (by rw [toRat_quietSeconds]; norm_num) htaken, toRat_quietSeconds, not_lt]
  rcases h.last_eq with ⟨rfl, hzero⟩ | ⟨hminute, hmem⟩
  · rw [hzero, sub_zero]
    exact ⟨fun hdue => ⟨hdue, fun _ hnone => nomatch hnone⟩, And.left⟩
  · constructor
    · intro hdue
      refine ⟨by linarith, fun time htime => ?_⟩
      have hle := h.le_last time htime
      linarith
    · exact fun hdue => hdue.2 _ hmem

/-- What one call does: a warning is given if the call is a report that fails and one is due. -/
theorem Paced.call_cases (h : reporter.Paced given) (folder : Path)
    (refusal : Path → Option FileError) (call : Call) :
    (reporter.Fails refusal call ∧ IsDue reporter.clock given) ∧
      (reporter.call folder refusal call).warnings = reporter.warnings + 1 ∧
      (reporter.call folder refusal call).lastWarning = reporter.clock ∨
    ¬ (reporter.Fails refusal call ∧ IsDue reporter.clock given) ∧
      (reporter.call folder refusal call).warnings = reporter.warnings ∧
      (reporter.call folder refusal call).lastWarning = reporter.lastWarning := by
  by_cases hfails : reporter.Fails refusal call
  · obtain ⟨tree, hcall⟩ := call_of_fails folder hfails
    rw [hcall, warn]
    by_cases hdue : IsDue reporter.clock given
    · rw [if_neg (h.due_iff.mpr hdue)]
      exact .inl ⟨⟨hfails, hdue⟩, rfl, rfl⟩
    · rw [if_pos (not_not.mp (mt h.due_iff.mp hdue))]
      exact .inr ⟨fun hboth => hdue hboth.2, rfl, rfl⟩
  · exact .inr ⟨fun hboth => hfails hboth.1, call_of_not_fails hfails⟩

/-- What a call preserves. -/
theorem Paced.call (h : reporter.Paced given) (folder : Path)
    (refusal : Path → Option FileError) {call : Call}
    (hfinite : (call.clockAfter reporter.clock).isFinite = true)
    (hforward : reporter.clock.toRat ≤ (call.clockAfter reporter.clock).toRat) :
    (reporter.call folder refusal call).Paced (given ++ reporter.warned folder refusal call) := by
  rw [warned]
  rcases h.call_cases folder refusal call with ⟨⟨-, hdue⟩, hwarnings, hlast⟩ | ⟨-, hwarnings, hlast⟩
  · rw [if_neg (by omega)]
    refine ⟨?_, ?_, ?_, ?_, ?_, ?_, ?_⟩
    · rwa [clock_call]
    · rw [hlast]
      exact h.isFinite_clock
    · rwa [hlast, clock_call]
    · rw [hlast]
      exact .inr ⟨hdue.1, List.mem_append_right _ List.mem_cons_self⟩
    · intro time htime
      rw [hlast]
      rcases List.mem_append.mp htime with hbefore | hnew
      · exact (h.le_last time hbefore).trans h.last_le_clock
      · rw [List.mem_singleton.mp hnew]
    · refine List.pairwise_append.mpr ⟨h.apart, List.pairwise_singleton _ _, ?_⟩
      intro earlier hearlier later hlater
      rw [List.mem_singleton.mp hlater]
      exact hdue.2 earlier hearlier
    · rw [hwarnings, h.length_eq, List.length_append, List.length_singleton]
  · rw [if_pos hwarnings, List.append_nil]
    refine ⟨?_, ?_, ?_, ?_, ?_, h.apart, ?_⟩
    · rwa [clock_call]
    · rw [hlast]
      exact h.isFinite_last
    · rw [hlast, clock_call]
      exact h.last_le_clock.trans hforward
    · rw [hlast]
      exact h.last_eq
    · rw [hlast]
      exact h.le_last
    · rw [hwarnings]
      exact h.length_eq

/-- What a run preserves. -/
theorem Paced.callEach {calls : List (Call × (Path → Option FileError))}
    (h : reporter.Paced given) (folder : Path) (hforward : RunsForward reporter.clock calls) :
    (reporter.callEach folder calls).Paced (given ++ reporter.warnedEach folder calls) := by
  induction calls generalizing reporter given with
  | nil => rwa [warnedEach, List.append_nil]
  | cons first calls ih =>
      obtain ⟨call, refusal⟩ := first
      obtain ⟨hfinite, hle, hrest⟩ := hforward
      rw [warnedEach, ← List.append_assoc]
      refine ih (h.call folder refusal hfinite hle) ?_
      rwa [clock_call]

theorem paced_start {clock : Binary64} (tree : FileTree) (now : String)
    (hfinite : clock.isFinite = true) (hpos : 0 ≤ clock.toRat) :
    (start tree now clock).Paced [] where
  isFinite_clock := hfinite
  isFinite_last := rfl
  last_le_clock := Binary64.toRat_zero.le.trans hpos
  last_eq := .inl ⟨rfl, Binary64.toRat_zero⟩
  le_last _ hnone := nomatch hnone
  apart := .nil
  length_eq := rfl

/-! ## Runs -/

/-- In a run whose clock never runs back, a call gives a warning exactly if it is a report that
fails, a minute has passed since each warning before it, and the clock shows a minute at least. -/
theorem warns_iff (folder : Path) (tree : FileTree) (now : String) {clock : Binary64}
    {calls : List (Call × (Path → Option FileError))} (hfinite : clock.isFinite = true)
    (hpos : 0 ≤ clock.toRat) (hforward : RunsForward clock calls) :
    let reporter := (start tree now clock).callEach folder calls
    let given := (start tree now clock).warnedEach folder calls
    (∀ call refusal,
      let after := reporter.call folder refusal call
      (after.warnings = reporter.warnings + 1 ↔
        reporter.Fails refusal call ∧ IsDue reporter.clock given) ∧
      (after.warnings = reporter.warnings ↔
        ¬ (reporter.Fails refusal call ∧ IsDue reporter.clock given))) ∧
    given.Pairwise (fun earlier later => 60 ≤ later.toRat - earlier.toRat) ∧
    reporter.warnings = given.length := by
  intro reporter given
  have hpaced : reporter.Paced given := (paced_start tree now hfinite hpos).callEach folder hforward
  refine ⟨fun call refusal => ?_, hpaced.apart, hpaced.length_eq⟩
  rcases hpaced.call_cases folder refusal call with ⟨hwarns, hcount, -⟩ | ⟨hquiet, hcount, -⟩
  · dsimp only
    rw [hcount]
    exact ⟨iff_of_true rfl hwarns, iff_of_false (Nat.succ_ne_self _) (not_not.mpr hwarns)⟩
  · dsimp only
    rw [hcount]
    exact ⟨iff_of_false (Nat.succ_ne_self _).symm hquiet, iff_of_true rfl hquiet⟩

/-- Two reports fail a minute after the clock showed zero and a minute after that. -/
theorem warns_iff_everyMinute :
    let event : Event := ⟨1, "t", .info, .formulaSet, [], "m", none⟩
    let refusal : Path → Option FileError := fun _ => some .isFolder
    let calls : List (Call × (Path → Option FileError)) :=
      [(.attach none, refusal), (.pass "t" (.ofNat 60), refusal), (.emit event none, refusal),
        (.pass "t" (.ofNat 120), refusal)]
    let reporter := (start .empty "t" .zero).callEach [] calls
    let given := (start .empty "t" .zero).warnedEach [] calls
    (Binary64.zero.isFinite = true ∧ 0 ≤ Binary64.zero.toRat ∧ RunsForward .zero calls) ∧
      given = [.ofNat 60] ∧
      (reporter.call [] refusal (.emit event none)).warnings = 2 ∧
      reporter.Fails refusal (.emit event none) ∧ IsDue reporter.clock given := by
  intro event refusal calls reporter given
  have hone : (Binary64.ofNat 60).toRat = 60 := Binary64.toRat_ofNat (by decide)
  have htwo : (Binary64.ofNat 120).toRat = 120 := Binary64.toRat_ofNat (by decide)
  have hfirst : (Binary64.ofNat 60).isFinite = true := by decide +kernel
  have hsecond : (Binary64.ofNat 120).isFinite = true := by decide +kernel
  have hforward : RunsForward .zero calls := by
    simp only [calls, RunsForward, Call.clockAfter, hone, htwo, hfirst, hsecond,
      Binary64.toRat_zero]
    norm_num
    rfl
  have hgiven : given = [.ofNat 60] := by decide +kernel
  have hcount : (reporter.call [] refusal (.emit event none)).warnings = 2 := by decide +kernel
  obtain ⟨hcalls, -, hlength⟩ :=
    warns_iff [] .empty "t" rfl Binary64.toRat_zero.ge hforward
  obtain ⟨hfails, hdue⟩ := (hcalls (.emit event none) refusal).1.mp (by
    rw [hlength]
    change _ = given.length + 1
    rw [hgiven]
    exact hcount)
  exact ⟨⟨rfl, Binary64.toRat_zero.ge, hforward⟩, hgiven, hcount, hfails, hdue⟩

/-- Ten seconds after the clock showed zero the first report fails, and no warning is given. -/
theorem warns_notYet :
    let event : Event := ⟨1, "t", .info, .formulaSet, [], "m", none⟩
    let refusal : Path → Option FileError := fun _ => some .isFolder
    let calls : List (Call × (Path → Option FileError)) := [(.attach none, refusal)]
    let reporter := (start .empty "t" (.ofNat 10)).callEach [] calls
    (0 ≤ (Binary64.ofNat 10).toRat ∧ RunsForward (.ofNat 10) calls) ∧
      reporter.Fails refusal (.emit event none) ∧
      (start .empty "t" (.ofNat 10)).warnedEach [] calls = [] ∧
      (reporter.call [] refusal (.emit event none)).warnings = reporter.warnings := by
  intro event refusal calls reporter
  have hten : (Binary64.ofNat 10).toRat = 10 := Binary64.toRat_ofNat (by decide)
  have hforward : RunsForward (.ofNat 10) calls := by
    simp only [calls, RunsForward, Call.clockAfter, hten]
    exact ⟨by decide +kernel, le_rfl, trivial⟩
  refine ⟨⟨by rw [hten]; norm_num, hforward⟩, ⟨_, rfl, fun context hcontext => ?_⟩, ?_, ?_⟩
  · obtain rfl : [] = context := Option.some.inj hcontext
    exact ⟨_, rfl, by decide +kernel⟩
  all_goals decide +kernel

end ColumnFormula.Reporter
