import ColumnFormula.Boundary
import ColumnFormula.Proofs.Aggregate.Replies
import ColumnFormula.Proofs.Formula.Grammar
import ColumnFormula.Proofs.Handles.Reachable
import ColumnFormula.Proofs.Lookup

/-!
# Calls and the texts of their errors

A call answers with what the engine computes, or with a new handle for the text of the error;
nothing else happens to the handles. So if every handle that calls give out is released later,
no text of theirs is left behind.
-/

namespace ColumnFormula

/-- What a host is told of an error: the reason alone of a fault of form, and the message of
any other error. -/
def FormulaError.spoken : FormulaError → String
  | .malformed fault => fault.reason
  | error => error.message

namespace Boundary

/-! ## What a call answers -/

/-- The value of an aggregate call, or the text of its error. An argument that is missing
counts before a column name that cannot be decoded, and this before any error of the engine. -/
def expected (choice : AggregateChoice) (column : RawText) (values : Option (List RawText))
    (count : Int) : Except String Binary64 :=
  match values with
  | none => .error "Null pointer provided"
  | some cells =>
    if column = .absent then .error "Null pointer provided"
    else if column.chars?.isNone then .error "Invalid column name encoding"
    else
      (choice.resolve.bind (·.apply (cells.take (max count 0).toNat))).mapError
        FormulaError.spoken

/-- An answer with a value, or with a new handle for the text of an error. -/
def answer {α β : Type} (ofValue : α → β) (ofHandle : Nat → β) (table : HandleTable) :
    Except String α → HandleTable × β
  | .ok value => (table, ofValue value)
  | .error text => ((table.alloc text).1, ofHandle (table.alloc text).2)

/-- Whether a call with an expected value leaves the handles alone and answers with the value,
or one with an expected error answers with a new handle, behind which stands its text, and
changes no other handle. -/
def Refines {α β : Type} (expected : Except String α) (ofValue : α → β) (ofHandle : Nat → β)
    (before : HandleTable) (result : HandleTable × β) : Prop :=
  match expected with
  | .ok value => result = (before, ofValue value)
  | .error text =>
    ∃ handle : Nat, result.2 = ofHandle handle ∧
      (before.issued < handle ∧ before.read? (some handle) = none) ∧
      result.1.read? (some handle) = some text ∧ result.1.size = before.size + 1 ∧
      ∀ other : Option Int, other ≠ some (handle : Int) →
        result.1.read? other = before.read? other

theorem refines_answer {α β : Type} {table : HandleTable} (h : table.Reachable)
    (expected : Except String α) (ofValue : α → β) (ofHandle : Nat → β) :
    Refines expected ofValue ofHandle table (answer ofValue ofHandle table expected) := by
  cases expected with
  | ok value => rfl
  | error text =>
      exact ⟨(table.alloc text).2, rfl, ⟨Nat.lt_succ_self _, h.read?_next⟩,
        table.read?_alloc_self text, table.size_alloc text,
        fun _ hother => table.read?_alloc_of_ne text hother⟩

/-! ### Splitting a formula -/

/-- The faults of a text all have a reason. -/
theorem bareMessage_of_ofRaw {formula : RawText} {error : FormulaError}
    (h : Formula.ofRaw formula = .error error) : error.bareMessage = error.spoken := by
  unfold Formula.ofRaw at h
  split at h
  · obtain rfl := Except.error.inj h
    rfl
  · split at h
    · obtain rfl := Except.error.inj h
      rfl
    next s _ =>
      cases hparse : Formula.ofChars s with
      | ok parsed => simp [hparse, Except.mapError] at h
      | error fault =>
          rw [hparse] at h
          obtain rfl := Except.error.inj h
          rcases Formula.ofChars_eq_error_iff.mp hparse with
            ⟨-, rfl⟩ | ⟨-, -, rfl⟩ | ⟨-, -, -, rfl⟩ <;> rfl

theorem parse_eq_answer (table : HandleTable) (formula : RawText) :
    parse table formula = answer (fun parsed => ⟨some parsed, none⟩)
      (fun handle => ⟨none, some handle⟩) table
      ((Formula.ofRaw formula).mapError FormulaError.spoken) := by
  unfold parse
  cases hraw : Formula.ofRaw formula with
  | ok parsed => rfl
  | error error =>
      dsimp only
      rw [bareMessage_of_ofRaw hraw]
      rfl

/-! ### Aggregates -/

/-- The errors of a chosen aggregate are no faults of form. -/
theorem bareMessage_of_apply {choice : AggregateChoice} {cells : List RawText}
    {error : FormulaError} (h : choice.resolve.bind (·.apply cells) = .error error) :
    error.bareMessage = error.spoken := by
  cases hresolve : choice.resolve with
  | ok aggregate =>
      rw [hresolve] at h
      obtain rfl := Aggregate.eq_of_apply_eq_error h
      rfl
  | error error' =>
      rw [hresolve] at h
      obtain rfl := Except.error.inj h
      cases choice with
      | named name =>
          have hname : Aggregate.ofName name = .error error' := hresolve
          obtain rfl := Aggregate.eq_of_ofName_eq_error hname
          rfl
      | fixed aggregate => cases hresolve

/-- With both arguments there, only the encoding and the engine decide. -/
theorem aggregate_of_ne_absent (table : HandleTable) (choice : AggregateChoice)
    {column : RawText} (hcolumn : column ≠ .absent) (cells : List RawText) (count : Int) :
    aggregate table choice column (some cells) count =
      if column.chars?.isNone then fail table "Invalid column name encoding"
      else
        match choice.resolve.bind (·.apply (cells.take count.toNat)) with
        | .ok value => (table, ⟨value, none⟩)
        | .error error => fail table error.bareMessage := by
  cases column with
  | absent => exact absurd rfl hcolumn
  | text s => rfl
  | bytes b => rfl

theorem aggregate_eq_answer (table : HandleTable) (choice : AggregateChoice) (column : RawText)
    (values : Option (List RawText)) (count : Int) :
    aggregate table choice column values count = answer (fun value => ⟨value, none⟩)
      (fun handle => ⟨.zero, some handle⟩) table (expected choice column values count) := by
  cases values with
  | none => cases column <;> rfl
  | some cells =>
      by_cases hcolumn : column = .absent
      · subst hcolumn
        rfl
      · have hcount : (max count 0).toNat = count.toNat := by omega
        rw [aggregate_of_ne_absent table choice hcolumn, expected, if_neg hcolumn, hcount]
        split
        · rfl
        · cases hvalue : choice.resolve.bind (·.apply (cells.take count.toNat)) with
          | ok value => rfl
          | error error =>
              dsimp only
              rw [bareMessage_of_apply hvalue]
              rfl

/-! ## Runs of calls -/

/-- A call of a host, or the release of a handle. -/
inductive Call where
  | parse (formula : RawText)
  | aggregate (choice : AggregateChoice) (column : RawText) (values : Option (List RawText))
    (count : Int)
  | free (handle : Option Int)
  deriving DecidableEq

/-- The handles after a call, and the handle of the error that it answers with. -/
def Call.perform (table : HandleTable) : Call → HandleTable × Option Nat
  | .parse formula =>
    let result := Boundary.parse table formula
    (result.1, result.2.error)
  | .aggregate choice column values count =>
    let result := Boundary.aggregate table choice column values count
    (result.1, result.2.error)
  | .free handle => (table.release handle, none)

/-- The handles after some calls. -/
def run (table : HandleTable) : List Call → HandleTable
  | [] => table
  | call :: calls => run (call.perform table).1 calls

/-- Whether each handle that a call gives out is released later, once or more often. -/
def FreesErrors (table : HandleTable) : List Call → Prop
  | [] => True
  | call :: calls =>
    (∀ handle : Nat, (call.perform table).2 = some handle → .free (some handle) ∈ calls) ∧
      FreesErrors (call.perform table).1 calls

/-- What a call may do to the handles: release one, nothing, or give out one. -/
theorem perform_cases (table : HandleTable) (call : Call) :
    (∃ handle, call = .free handle ∧ call.perform table = (table.release handle, none)) ∨
    (∀ handle, call ≠ .free handle) ∧ (call.perform table = (table, none) ∨
      ∃ text, call.perform table = ((table.alloc text).1, some (table.alloc text).2)) := by
  cases call with
  | free handle => exact .inl ⟨handle, rfl, rfl⟩
  | parse formula =>
      refine .inr ⟨fun handle heq => (nomatch heq), ?_⟩
      simp only [Call.perform, parse_eq_answer]
      cases (Formula.ofRaw formula).mapError FormulaError.spoken with
      | ok parsed => exact .inl rfl
      | error text => exact .inr ⟨text, rfl⟩
  | aggregate choice column values count =>
      refine .inr ⟨fun handle heq => (nomatch heq), ?_⟩
      simp only [Call.perform, aggregate_eq_answer]
      cases expected choice column values count with
      | ok value => exact .inl rfl
      | error text => exact .inr ⟨text, rfl⟩

theorem reachable_run {table : HandleTable} (h : table.Reachable) (calls : List Call) :
    (run table calls).Reachable := by
  induction calls generalizing table with
  | nil => exact h
  | cons call calls ih =>
      apply ih
      rcases perform_cases table call with
        ⟨handle, -, hperform⟩ | ⟨-, hperform | ⟨text, hperform⟩⟩
      · rw [hperform]
        exact .release handle h
      · rw [hperform]
        exact h
      · rw [hperform]
        exact .alloc text h

/-- A run that releases what its calls give out leaves of the texts those which were there
before and are not released. -/
theorem live_run {table : HandleTable} {calls : List Call} (h : FreesErrors table calls) :
    (run table calls).live = table.live.filter fun entry => Call.free (some entry.1) ∉ calls := by
  induction calls generalizing table with
  | nil => exact (List.filter_eq_self.mpr fun _ _ => by simp).symm
  | cons call calls ih =>
      obtain ⟨hfreed, hrest⟩ := h
      rw [run, ih hrest]
      rcases perform_cases table call with
        ⟨handle, rfl, hperform⟩ | ⟨hcall, hperform | ⟨text, hperform⟩⟩
      · -- What is released now might as well be released later.
        rw [hperform, HandleTable.live_release, List.filter_filter]
        apply List.filter_congr
        intro entry _
        simp [Bool.and_comm, eq_comm]
      · rw [hperform]
        apply List.filter_congr
        intro entry _
        simp [Ne.symm (hcall _)]
      · -- The new text is released later, so it does not stay.
        rw [hperform] at hfreed ⊢
        have hlater : Call.free (some (table.issued + 1 : Nat)) ∈ calls := hfreed _ rfl
        rw [HandleTable.alloc, List.filter_cons_of_neg (by simpa using hlater)]
        apply List.filter_congr
        intro entry _
        simp [Ne.symm (hcall _)]

theorem read?_run {table : HandleTable} {calls : List Call} (h : FreesErrors table calls)
    (handle : Option Int) : (run table calls).read? handle =
      if Call.free handle ∈ calls then none else table.read? handle := by
  unfold HandleTable.read?
  split
  next n =>
    rw [live_run h]
    refine (lookup_filter table.live (fun n => Call.free (some (n : Int)) ∉ calls) n).trans ?_
    by_cases hfreed : Call.free (some (n : Int)) ∈ calls <;> simp [hfreed]
  next => simp

/-- Calls refine the engine and account for the texts of their errors. Each call on handles that
came about by giving out and releasing leaves them alone and answers with the value, or answers
with a new handle for the text of the error and changes nothing else. So a run that releases
each of these handles, once or more often, leaves of the texts exactly those which were there
before and are not released, and as many as there were if it releases none of them. -/
theorem calls_refine_and_account {table : HandleTable} (h : table.Reachable) :
    (∀ formula, Refines ((Formula.ofRaw formula).mapError FormulaError.spoken)
      (fun parsed => ⟨some parsed, none⟩) (fun handle => ⟨none, some handle⟩) table
      (parse table formula)) ∧
    (∀ choice column values count, Refines (expected choice column values count)
      (fun value => ⟨value, none⟩) (fun handle => ⟨.zero, some handle⟩) table
      (aggregate table choice column values count)) ∧
    ∀ calls, FreesErrors table calls → (run table calls).Reachable ∧
      (∀ handle, (run table calls).read? handle =
        if Call.free handle ∈ calls then none else table.read? handle) ∧
      ((∀ handle, table.read? handle ≠ none → Call.free handle ∉ calls) →
        (run table calls).size = table.size) := by
  refine ⟨?_, ?_, ?_⟩
  · intro formula
    rw [parse_eq_answer]
    exact refines_answer h _ _ _
  · intro choice column values count
    rw [aggregate_eq_answer]
    exact refines_answer h _ _ _
  · intro calls hfrees
    refine ⟨reachable_run h calls, read?_run hfrees, ?_⟩
    intro hkept
    have hlive : (run table calls).live = table.live := by
      rw [live_run hfrees, List.filter_eq_self]
      intro entry hentry
      simpa using hkept _ (HandleTable.read?_ne_none_of_mem hentry)
    rw [HandleTable.size, hlive, HandleTable.size]

/-- A missing formula and a missing column in a table that holds some other text, with the
first handle released twice. -/
theorem calls_refine_and_account_missing :
    let table := (HandleTable.empty.alloc "kept").1
    let calls : List Call := [.parse .absent, .aggregate (.named "avg") (.text "a") none (-1),
      .free (some 2), .free (some 3), .free (some 2)]
    (table.Reachable ∧ FreesErrors table calls) ∧
      (run table calls).read? (some 1) = some "kept" ∧ (run table calls).size = 1 := by
  intro table calls
  have hreachable : table.Reachable := .alloc "kept" .empty
  have hfrees : FreesErrors table calls := by
    refine ⟨fun handle hhandle => ?_, fun handle hhandle => ?_, ?_⟩
    · obtain rfl : 2 = handle := Option.some.inj hhandle
      decide
    · obtain rfl : 3 = handle := Option.some.inj hhandle
      decide
    · exact ⟨nofun, nofun, nofun, trivial⟩
  obtain ⟨-, -, hruns⟩ := calls_refine_and_account hreachable
  obtain ⟨-, hread, hsize⟩ := hruns calls hfrees
  refine ⟨⟨hreachable, hfrees⟩, (hread (some 1)).trans (by decide), hsize ?_⟩
  intro handle hlive hfreed
  have hcases : handle = some 2 ∨ handle = some 3 ∨ handle = some 2 := by
    simpa [calls] using hfreed
  rcases hcases with rfl | rfl | rfl <;> exact hlive rfl

end Boundary

end ColumnFormula
