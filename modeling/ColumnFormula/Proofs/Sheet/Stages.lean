import ColumnFormula.Proofs.Aggregate.Replies
import ColumnFormula.Proofs.Sheet.Passes

/-!
# The stages of a calculation

A formula is parsed, its name is taken as an aggregate, its argument as a column, and the column
is reduced. Each stage fails for a reason of its own, which can be told without running the
stages: the first of them that fails gives the message, and if none fails there is a result.
So a calculation always comes to an outcome, and this is either a text or a message, never
both, and never empty.
-/

namespace ColumnFormula

/-! ## Stages -/

/-- The stages of a calculation. -/
inductive Stage where
  | parsing | naming | lookup | reduction
  deriving DecidableEq, Repr

/-- The place of a stage in their order. -/
def Stage.place : Stage → Nat
  | .parsing => 0
  | .naming => 1
  | .lookup => 2
  | .reduction => 3

/-- Whether a name means a column: the first of those that it matches. -/
def Table.Means (table : Table) (name : String) (column : Column) : Prop :=
  nameKey column.name = nameKey name ∧ ∃ before after,
    table.columns = before ++ column :: after ∧
      ∀ other ∈ before, nameKey other.name ≠ nameKey name

/-- How a stage fails, given that it is reached: formulas that cannot be parsed, names that mean
no aggregate, arguments that match no column, and columns without any number, unless they are
counted. -/
inductive Fails (formula : RawText) (table : Table) : Stage → FormulaError → Prop
  | parsing {error : FormulaError} :
      Formula.ofRaw formula = .error error → Fails formula table .parsing error
  | naming {parsed : Formula} : Formula.ofRaw formula = .ok parsed →
      (∀ aggregate : Aggregate, ¬ aggregate.IsMeantBy parsed.name) →
        Fails formula table .naming (.unknownFunction parsed.name none)
  | lookup {parsed : Formula} : Formula.ofRaw formula = .ok parsed →
      (∀ column ∈ table.columns,
        Table.nameKey column.name ≠ Table.nameKey parsed.argument) →
        Fails formula table .lookup (.columnNotFound parsed.argument table.names)
  | reduction {parsed : Formula} {aggregate : Aggregate} {column : Column} :
      Formula.ofRaw formula = .ok parsed → aggregate.IsMeantBy parsed.name →
      table.Means parsed.argument column → aggregate ≠ .count →
      (∀ cell ∈ column.cells, Cell.number? (.ofOption cell) = none) →
        Fails formula table .reduction (.noNumericValues aggregate.name)

/-- Whether a failure is that of the first stage that fails. -/
def FailsFirst (formula : RawText) (table : Table) (error : FormulaError) : Prop :=
  ∃ stage, Fails formula table stage error ∧
    ∀ earlier : Stage, earlier.place < stage.place → ∀ other, ¬ Fails formula table earlier other

/-! ## One stage -/

namespace Aggregate

variable {aggregate : Aggregate} {cells : List RawText} {error : FormulaError}

theorem apply_eq_error_iff : aggregate.apply cells = .error error ↔
    aggregate ≠ .count ∧ (∀ cell ∈ cells, Cell.number? cell = none) ∧
      error = .noNumericValues aggregate.name := by
  rw [← List.filterMap_eq_nil_iff, ← Cell.numbers]
  by_cases hcount : aggregate = .count
  · simp [hcount, apply_count]
  · rw [apply_of_ne_count hcount]
    cases Cell.numbers cells <;> simp [hcount, eq_comm]

end Aggregate

namespace Table

variable {table : Table} {name : String} {column : Column} {error : FormulaError}

theorem column_eq_ok_iff : table.column name = .ok column ↔ table.Means name column := by
  have hfind : table.column name = .ok column ↔
      table.columns.find? (fun column => nameKey column.name == nameKey name) = some column := by
    unfold Table.column
    cases table.columns.find? fun column => nameKey column.name == nameKey name <;> simp
  rw [hfind, List.find?_eq_some_iff_append, Means]
  simp

theorem Means.unique {other : Column} (h : table.Means name column)
    (hother : table.Means name other) : column = other :=
  Except.ok.inj ((column_eq_ok_iff.mpr h).symm.trans (column_eq_ok_iff.mpr hother))

theorem Means.mem (h : table.Means name column) : column ∈ table.columns := by
  obtain ⟨-, before, after, hcolumns, -⟩ := h
  rw [hcolumns]
  exact List.mem_append_right before List.mem_cons_self

theorem column_eq_error_iff : table.column name = .error error ↔
    (∀ column ∈ table.columns, nameKey column.name ≠ nameKey name) ∧
      error = .columnNotFound name table.names := by
  unfold Table.column
  split
  next column hfind =>
    have hmatch := List.find?_some hfind
    have hmem := List.mem_of_find?_eq_some hfind
    simp only [beq_iff_eq] at hmatch
    refine ⟨fun h => (by cases h), fun h => absurd hmatch (h.1 column hmem)⟩
  next hnone =>
    simp only [List.find?_eq_none, beq_iff_eq] at hnone
    exact ⟨fun h => ⟨hnone, (Except.error.inj h).symm⟩, fun h => congrArg Except.error h.2.symm⟩

end Table

namespace Fails

variable {formula : RawText} {table : Table} {stage : Stage} {error other : FormulaError}
  {parsed : Formula} {aggregate : Aggregate} {column : Column}

/-- A stage fails for one reason only. -/
theorem unique (h : Fails formula table stage error) (hother : Fails formula table stage other) :
    error = other := by
  cases h with
  | parsing hparse =>
      obtain ⟨hparse'⟩ := hother
      exact Except.error.inj (hparse.symm.trans hparse')
  | naming hparse _ =>
      cases hother with
      | naming hparse' _ => rw [Except.ok.inj (hparse.symm.trans hparse')]
  | lookup hparse _ =>
      cases hother with
      | lookup hparse' _ => rw [Except.ok.inj (hparse.symm.trans hparse')]
  | reduction hparse hmeant _ _ _ =>
      cases hother with
      | reduction hparse' hmeant' _ _ _ =>
          obtain rfl := Except.ok.inj (hparse.symm.trans hparse')
          rw [hmeant.unique hmeant']

theorem not_parsing (hparse : Formula.ofRaw formula = .ok parsed) :
    ¬ Fails formula table .parsing error := by
  rintro ⟨hparse'⟩
  cases hparse.symm.trans hparse'

theorem not_naming (hparse : Formula.ofRaw formula = .ok parsed)
    (hmeant : aggregate.IsMeantBy parsed.name) : ¬ Fails formula table .naming error := by
  rintro (_ | ⟨hparse', hnone⟩)
  obtain rfl := Except.ok.inj (hparse.symm.trans hparse')
  exact hnone aggregate hmeant

theorem not_lookup (hparse : Formula.ofRaw formula = .ok parsed)
    (hmem : column ∈ table.columns)
    (hmatch : Table.nameKey column.name = Table.nameKey parsed.argument) :
    ¬ Fails formula table .lookup error := by
  rintro (_ | _ | ⟨hparse', hnone⟩)
  obtain rfl := Except.ok.inj (hparse.symm.trans hparse')
  exact hnone column hmem hmatch

theorem not_reduction (hparse : Formula.ofRaw formula = .ok parsed)
    (hmeant : aggregate.IsMeantBy parsed.name) (hmeans : table.Means parsed.argument column)
    (happly : ∃ value, aggregate.apply (column.cells.map RawText.ofOption) = .ok value) :
    ¬ Fails formula table .reduction error := by
  intro hfails
  cases hfails with
  | reduction hparse' hmeant' hmeans' hcount hnumbers =>
      obtain rfl := Except.ok.inj (hparse.symm.trans hparse')
      obtain rfl := hmeant.unique hmeant'
      obtain rfl := hmeans.unique hmeans'
      obtain ⟨value, hvalue⟩ := happly
      have herror := Aggregate.apply_eq_error_iff.mpr
        ⟨hcount, List.forall_mem_map.mpr hnumbers, rfl⟩
      cases hvalue.symm.trans herror

/-- Each stage fails in words that people read. -/
theorem isEngine (h : Fails formula table stage error) : error.isEngine = true := by
  cases h with
  | parsing hparse =>
      unfold Formula.ofRaw at hparse
      split at hparse
      next =>
        obtain rfl := Except.error.inj hparse
        rfl
      next raw _ =>
        split at hparse
        next =>
          obtain rfl := Except.error.inj hparse
          rfl
        next s _ =>
          cases hchars : Formula.ofChars s with
          | ok parsed =>
              rw [hchars] at hparse
              cases hparse
          | error fault =>
              rw [hchars] at hparse
              obtain rfl := Except.error.inj hparse
              rfl
  | _ => rfl

end Fails

namespace FailsFirst

variable {formula : RawText} {table : Table} {error other : FormulaError} {parsed : Formula}
  {aggregate : Aggregate} {column : Column}

/-- At most one failure is the first. -/
theorem unique (h : FailsFirst formula table error) (hother : FailsFirst formula table other) :
    error = other := by
  obtain ⟨stage, hfails, hfirst⟩ := h
  obtain ⟨stage', hfails', hfirst'⟩ := hother
  have hle : ¬ stage.place < stage'.place := fun hlt => hfirst' stage hlt error hfails
  have hge : ¬ stage'.place < stage.place := fun hlt => hfirst stage' hlt other hfails'
  obtain rfl : stage = stage' := by
    cases stage <;> cases stage' <;> simp [Stage.place] at hle hge ⊢
  exact hfails.unique hfails'

theorem parsing (hparse : Formula.ofRaw formula = .error error) :
    FailsFirst formula table error := by
  refine ⟨.parsing, .parsing hparse, ?_⟩
  intro earlier hlt
  exact absurd hlt (Nat.not_lt_zero _)

theorem naming (hparse : Formula.ofRaw formula = .ok parsed)
    (hnone : ∀ aggregate : Aggregate, ¬ aggregate.IsMeantBy parsed.name) :
    FailsFirst formula table (.unknownFunction parsed.name none) := by
  refine ⟨.naming, .naming hparse hnone, ?_⟩
  intro earlier hlt other
  cases earlier with
  | parsing => exact Fails.not_parsing hparse
  | _ => simp [Stage.place] at hlt

theorem lookup (hparse : Formula.ofRaw formula = .ok parsed)
    (hmeant : aggregate.IsMeantBy parsed.name)
    (hnone : ∀ column ∈ table.columns,
      Table.nameKey column.name ≠ Table.nameKey parsed.argument) :
    FailsFirst formula table (.columnNotFound parsed.argument table.names) := by
  refine ⟨.lookup, .lookup hparse hnone, ?_⟩
  intro earlier hlt other
  cases earlier with
  | parsing => exact Fails.not_parsing hparse
  | naming => exact Fails.not_naming hparse hmeant
  | _ => simp [Stage.place] at hlt

theorem reduction (hparse : Formula.ofRaw formula = .ok parsed)
    (hmeant : aggregate.IsMeantBy parsed.name) (hmeans : table.Means parsed.argument column)
    (hcount : aggregate ≠ .count)
    (hnumbers : ∀ cell ∈ column.cells, Cell.number? (.ofOption cell) = none) :
    FailsFirst formula table (.noNumericValues aggregate.name) := by
  refine ⟨.reduction, .reduction hparse hmeant hmeans hcount hnumbers, ?_⟩
  intro earlier hlt other
  cases earlier with
  | parsing => exact Fails.not_parsing hparse
  | naming => exact Fails.not_naming hparse hmeant
  | lookup => exact Fails.not_lookup hparse hmeans.mem hmeans.1
  | reduction => simp at hlt

end FailsFirst

namespace Sheet

variable {formula : RawText} {table : Table} {error : FormulaError}

/-- The stages one by one: the first that fails gives the error, or all of them are passed. -/
theorem evaluate_cases (formula : RawText) (table : Table) :
    (∃ error, evaluate formula table = .error error ∧ FailsFirst formula table error) ∨
      ∃ evaluation, evaluate formula table = .ok evaluation ∧
        ∀ stage error, ¬ Fails formula table stage error := by
  simp only [evaluate, Table.cells, bind, Except.bind]
  cases hparse : Formula.ofRaw formula with
  | error error => exact .inl ⟨error, rfl, .parsing hparse⟩
  | ok parsed =>
      dsimp only
      cases hname : Aggregate.ofName parsed.name with
      | error error =>
          obtain ⟨hnone, rfl⟩ := Aggregate.ofName_eq_error_iff.mp hname
          exact .inl ⟨_, rfl, .naming hparse hnone⟩
      | ok aggregate =>
          have hmeant := Aggregate.ofName_eq_ok_iff.mp hname
          dsimp only
          cases hcolumn : table.column parsed.argument with
          | error error =>
              obtain ⟨hnone, rfl⟩ := Table.column_eq_error_iff.mp hcolumn
              exact .inl ⟨_, rfl, .lookup hparse hmeant hnone⟩
          | ok column =>
              have hmeans := Table.column_eq_ok_iff.mp hcolumn
              dsimp only [Except.map]
              cases happly : aggregate.apply (column.cells.map RawText.ofOption) with
              | error error =>
                  obtain ⟨hcount, hnumbers, rfl⟩ := Aggregate.apply_eq_error_iff.mp happly
                  exact .inl ⟨_, rfl,
                    .reduction hparse hmeant hmeans hcount (List.forall_mem_map.mp hnumbers)⟩
              | ok value =>
                  refine .inr ⟨_, rfl, fun stage error => ?_⟩
                  cases stage with
                  | parsing => exact Fails.not_parsing hparse
                  | naming => exact Fails.not_naming hparse hmeant
                  | lookup => exact Fails.not_lookup hparse hmeans.mem hmeans.1
                  | reduction => exact Fails.not_reduction hparse hmeant hmeans ⟨value, happly⟩

/-- The error of a formula is that of the first stage that fails. -/
theorem evaluate_eq_error_iff : evaluate formula table = .error error ↔
    FailsFirst formula table error := by
  rcases evaluate_cases formula table with ⟨other, hother, hfirst⟩ | ⟨evaluation, heval, hnone⟩
  · rw [hother]
    constructor
    · intro h
      rwa [← Except.error.inj h]
    · intro h
      rw [hfirst.unique h]
  · rw [heval]
    refine ⟨fun h => (by cases h), ?_⟩
    rintro ⟨stage, hfails, -⟩
    exact absurd hfails (hnone stage error)

end Sheet

/-! ## Texts that are not empty -/

theorem Text.append_ne_empty {s : String} (h : s ≠ "") (t : String) : s ++ t ≠ "" := by
  intro hempty
  exact h (String.append_eq_empty_iff.mp hempty).1

/-- What the engine reports, it reports in words. -/
theorem FormulaError.message_ne_empty {error : FormulaError} (h : error.isEngine = true) :
    error.message ≠ "" := by
  unfold FormulaError.message
  cases error with
  | general message => cases h
  | nullInput what =>
      exact Text.append_ne_empty (Text.append_ne_empty (s := "Null ") (by decide) what) _
  | invalidEncoding what =>
      exact Text.append_ne_empty (Text.append_ne_empty (s := "Invalid ") (by decide) what) _
  | malformed fault =>
      unfold SyntaxFault.message
      exact Text.append_ne_empty
        (Text.append_ne_empty (s := "Formula parse error: ") (by decide) fault.reason) _
  | noNumericValues function =>
      intro hempty
      exact absurd (String.append_eq_empty_iff.mp hempty).2 (by decide)
  | columnNotFound name available =>
      exact Text.append_ne_empty (Text.append_ne_empty
        (Text.append_ne_empty (s := "Column ") (by decide) _) _) _
  | unknownFunction name message =>
      cases message with
      | none => exact Text.append_ne_empty (s := "Unknown function: ") (by decide) _
      | some message =>
          dsimp only
          split
          next => exact Text.append_ne_empty (s := "Unknown function: ") (by decide) _
          next hne => simpa using hne

theorem Text.toString_ne_empty (n : Int) : toString n ≠ "" := by
  have hrepr : ∀ m : Nat, Nat.repr m ≠ "" := by
    intro m
    rw [Nat.repr, Ne, String.ofList_eq_empty_iff]
    exact Nat.toDigits_ne_nil
  cases n with
  | ofNat m => exact hrepr m
  | negSucc m => exact Text.append_ne_empty (s := "-") (by decide) (Nat.repr (m + 1))

theorem Binary64.toText_ne_empty (x : Binary64) : x.toText ≠ "" := by
  rw [toText, Ne, String.ofList_eq_empty_iff]
  cases x with
  | nan => exact List.cons_ne_nil _ _
  | infinite negative => cases negative <;> exact List.cons_ne_nil _ _
  | finite negative units h =>
      obtain ⟨c, s, hwrite, -⟩ := Json.writeFloat_head (.finite negative units h)
      change (Binary64.finite negative units h).toChars = c :: s at hwrite
      rw [hwrite]
      exact List.cons_ne_nil c s

theorem Aggregate.display_ne_empty {aggregate : Aggregate} {integerResults : Bool} {x : Binary64}
    {text : String} (h : aggregate.display integerResults x = .ok text) : text ≠ "" := by
  unfold display at h
  split at h
  · cases h
  · cases h
  · obtain rfl := Except.ok.inj h
    exact Text.toString_ne_empty _
  · split at h
    · obtain rfl := Except.ok.inj h
      exact Text.toString_ne_empty _
    · obtain rfl := Except.ok.inj h
      exact Binary64.toText_ne_empty _
  · obtain rfl := Except.ok.inj h
    exact Binary64.toText_ne_empty _

/-! ## Outcomes -/

/-- Whether exactly one of result and error is set, and this is not empty. -/
def Outcome.IsExclusive (outcome : Outcome) : Prop :=
  (∃ text, text ≠ "" ∧ outcome = ⟨some text, none⟩) ∨
    ∃ message, message ≠ "" ∧ outcome = ⟨none, some message⟩

/-- What the outcome of a formula has to be. -/
structure Settles (integerResults : Bool) (formula : RawText) (table : Table)
    (outcome : Outcome) : Prop where
  exclusive : outcome.IsExclusive
  failure : ∀ error, FailsFirst formula table error → outcome = .ofError error.message
  /-- If no stage fails, the value of the formula is shown. -/
  result : (∀ stage error, ¬ Fails formula table stage error) →
    ∃ evaluation text, Sheet.evaluate formula table = .ok evaluation ∧
      evaluation.aggregate.display integerResults evaluation.value = .ok text ∧
      outcome = .ofResult text
  /-- A column that there is can be counted. -/
  count : ∀ parsed, Formula.ofRaw formula = .ok parsed → Aggregate.count.IsMeantBy parsed.name →
    (∃ column ∈ table.columns, Table.nameKey column.name = Table.nameKey parsed.argument) →
    ∃ text, outcome = .ofResult text

namespace Sheet

variable {formula : RawText} {table : Table}

theorem not_fails_count {parsed : Formula} (hparse : Formula.ofRaw formula = .ok parsed)
    (hmeant : Aggregate.count.IsMeantBy parsed.name)
    (hcolumn : ∃ column ∈ table.columns,
      Table.nameKey column.name = Table.nameKey parsed.argument)
    (stage : Stage) (error : FormulaError) : ¬ Fails formula table stage error := by
  obtain ⟨column, hmem, hmatch⟩ := hcolumn
  cases stage with
  | parsing => exact Fails.not_parsing hparse
  | naming => exact Fails.not_naming hparse hmeant
  | lookup => exact Fails.not_lookup hparse hmem hmatch
  | reduction =>
      intro hfails
      cases hfails with
      | reduction hparse' hmeant' _ hcount _ =>
          obtain rfl := Except.ok.inj (hparse.symm.trans hparse')
          exact hcount (hmeant'.unique hmeant)

/-- A formula against a table whose columns can be counted always comes to its outcome. -/
theorem exists_settles (hcount : table.IsCountable) (integerResults : Bool) (formula : RawText)
    (context : List (String × Json)) (calcId : Option String) :
    ∃ result report, outcome integerResults formula table context calcId = .ok (result, report) ∧
      Settles integerResults formula table result := by
  unfold outcome
  rcases evaluate_cases formula table with ⟨error, heval, hfirst⟩ | ⟨evaluation, heval, hnone⟩
  · obtain ⟨stage, hfails, -⟩ := id hfirst
    have hmessage := FormulaError.message_ne_empty hfails.isEngine
    rw [heval]
    refine ⟨_, _, rfl, .inr ⟨_, hmessage, rfl⟩, ?_, ?_, ?_⟩
    · intro other hother
      rw [hfirst.unique hother]
    · intro hnone
      exact absurd hfails (hnone stage error)
    · intro parsed hparse hmeant hcolumn
      exact absurd hfails (not_fails_count hparse hmeant hcolumn stage error)
  · obtain ⟨column, hcolumn, happly⟩ := exists_column_of_evaluate heval
    obtain ⟨text, htext⟩ := Aggregate.exists_display_of_apply happly
      (by simpa using hcount column hcolumn) integerResults
    rw [heval]
    dsimp only
    rw [htext]
    refine ⟨_, _, rfl, .inl ⟨text, Aggregate.display_ne_empty htext, rfl⟩, ?_, ?_, ?_⟩
    · rintro error ⟨stage, hfails, -⟩
      exact absurd hfails (hnone stage error)
    · intro _
      exact ⟨evaluation, text, heval, htext, rfl⟩
    · intro _ _ _ _
      exact ⟨text, rfl⟩

/-- Calculations are total. Against a table whose columns can be counted, every formula and every
cell of every sheet comes to an outcome: either a text or the message of an error, and neither is
empty. A formula has the message of the first stage that fails, and a result if none fails; one
of the two holds. A cell without a formula is told so. The name of every aggregate is one of those
that are looked up. -/
theorem calculation_total (sheet : Sheet) {table : Table} (hcount : table.IsCountable) :
    (∀ formula : RawText,
      (∃ outcome report, sheet.calculateFormula formula table = .ok (outcome, report) ∧
        Settles sheet.integerResults formula table outcome) ∧
      ((∃ error, FailsFirst formula table error) ∨
        ∀ stage error, ¬ Fails formula table stage error)) ∧
    (∀ cell calcId, ∃ outcome report,
      sheet.calculate cell table calcId = .ok (outcome, report) ∧ outcome.IsExclusive ∧
        match sheet.store.get? cell with
        | none => outcome = .ofError "No formula found for cell"
        | some formula => Settles sheet.integerResults (.text formula) table outcome) ∧
    ∀ aggregate : Aggregate, Aggregate.ofExactName? aggregate.name = some aggregate ∧
      Aggregate.registered aggregate.name = .ok aggregate.apply := by
  refine ⟨fun formula => ⟨exists_settles hcount _ formula _ _, ?_⟩, ?_, ?_⟩
  · rcases evaluate_cases formula table with ⟨error, -, hfirst⟩ | ⟨evaluation, -, hnone⟩
    · exact .inl ⟨error, hfirst⟩
    · exact .inr hnone
  · intro cell calcId
    unfold calculate
    cases sheet.store.get? cell with
    | none => exact ⟨_, _, rfl, .inr ⟨noFormulaMessage, by decide, rfl⟩, rfl⟩
    | some formula =>
        obtain ⟨outcome, report, houtcome, hsettles⟩ :=
          exists_settles hcount sheet.integerResults (.text formula) (cellContext cell) calcId
        exact ⟨outcome, report, houtcome, hsettles.exclusive, hsettles⟩
  · intro aggregate
    cases aggregate <;> exact ⟨rfl, rfl⟩

/-- The mean of numbers whose total is out of range has a text too; a column without numbers
fails in the last stage, and the name in front of it in an earlier one. -/
theorem calculation_total_outOfRange :
    let sheet : Sheet := { start false with
      store := FormulaStore.empty.insert ⟨-1, 2⟩ "= avg( B )" }
    let table : Table := ⟨[⟨"a", [some "x", none]⟩, ⟨" b", [some "1e308", some "1e308"]⟩]⟩
    table.IsCountable ∧
      (∃ outcome report, sheet.calculate ⟨-1, 2⟩ table none = .ok (outcome, report) ∧
        outcome.IsExclusive ∧ outcome = .ofResult "inf") ∧
      (∃ outcome report, sheet.calculateFormula (.text "=MIN(a)") table = .ok (outcome, report) ∧
        Settles false (.text "=MIN(a)") table outcome ∧
        outcome = .ofError "MIN: no numeric values found in column") ∧
      ∃ outcome report, sheet.calculateFormula (.text "=MEAN(c)") table = .ok (outcome, report) ∧
        Settles false (.text "=MEAN(c)") table outcome ∧
        outcome = .ofError "Unknown function: 'MEAN'" := by
  intro sheet table
  have hcount : table.IsCountable := by
    unfold Table.IsCountable
    decide
  obtain ⟨hformulas, hcells, -⟩ := sheet.calculation_total hcount
  obtain ⟨mean, meanReport, hmean, hexclusive, -⟩ := hcells ⟨-1, 2⟩ none
  obtain ⟨least, leastReport, hleast, hleastSettles⟩ := (hformulas (.text "=MIN(a)")).1
  obtain ⟨other, otherReport, hother, hotherSettles⟩ := (hformulas (.text "=MEAN(c)")).1
  refine ⟨hcount, ⟨mean, meanReport, hmean, hexclusive, ?_⟩,
    ⟨least, leastReport, hleast, hleastSettles, ?_⟩, other, otherReport, hother, hotherSettles, ?_⟩
  · have hvalue : (sheet.calculate ⟨-1, 2⟩ table none).map (·.1) = .ok (.ofResult "inf") := by
      decide +kernel
    rw [hmean] at hvalue
    exact Except.ok.inj hvalue
  · have hvalue : (sheet.calculateFormula (.text "=MIN(a)") table).map (·.1) =
        .ok (.ofError "MIN: no numeric values found in column") := by
      decide +kernel
    rw [hleast] at hvalue
    exact Except.ok.inj hvalue
  · have hvalue : (sheet.calculateFormula (.text "=MEAN(c)") table).map (·.1) =
        .ok (.ofError "Unknown function: 'MEAN'") := by
      decide +kernel
    rw [hother] at hvalue
    exact Except.ok.inj hvalue

end Sheet

end ColumnFormula
