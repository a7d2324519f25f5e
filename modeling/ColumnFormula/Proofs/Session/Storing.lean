import ColumnFormula.Proofs.Session.Formulas

/-!
# Storing a formula is transparent

A formula is trimmed when a cell is set to it and trimmed again when it is parsed, and both times
the same texts lack an equals sign. So a cell comes to what the text that it was set to comes to,
faults and their positions included; a text that is refused would fail in the words of the
refusal; and a cell that was set to a blank text has no formula.
-/

namespace ColumnFormula

open Text (strip strip_strip)

/-! ## Formulas without the blanks around them -/

/-- Blanks around a formula make no difference, not even to the position of a fault. -/
theorem Formula.ofRaw_strip (s : String) :
    ofRaw (.text (String.ofList (strip s.toList))) = ofRaw (.text s) := by
  rw [ofRaw_text, ofRaw_text, parse, parse, String.toList_ofList]
  unfold ofChars
  rw [strip_strip]

/-- What a cell keeps of a text is the same formula as the text. -/
theorem Formula.ofRaw_trimmed {text : Option String} (h : Action.trimmed text ≠ []) :
    ofRaw (.text (String.ofList (Action.trimmed text))) = ofRaw (.ofOption text) := by
  cases text with
  | none => exact absurd (by decide) h
  | some s => exact ofRaw_strip s

namespace Sheet

variable {formula other : RawText} {table : Table} {sheet : Sheet} {cell : CellRef}
  {text : Option String}

theorem evaluate_congr (h : Formula.ofRaw formula = Formula.ofRaw other) (table : Table) :
    evaluate formula table = evaluate other table := by
  rw [evaluate, evaluate, h]

/-- A text that no cell can be set to would fail for want of an equals sign. -/
theorem evaluate_of_not_isSettable (h : ¬ Action.IsSettable text) (table : Table) :
    evaluate (.ofOption text) table = .error (.malformed .missingLeadingEquals) := by
  obtain ⟨hblank, hequals⟩ := not_or.mp h
  cases text with
  | none => exact absurd (by decide) hblank
  | some s =>
      have hparse : Formula.ofChars s.toList = .error .missingLeadingEquals :=
        Formula.ofChars_eq_error_iff.mpr (.inl ⟨hequals, rfl⟩)
      rw [RawText.ofOption, evaluate, Formula.ofRaw_text, Formula.parse, hparse]
      rfl

theorem calculate_of_get? {formula : String} (h : sheet.store.get? cell = some formula)
    (table : Table) (calcId : Option String) :
    (sheet.calculate cell table calcId).map (·.1) =
      (sheet.calculateFormula (.text formula) table).map (·.1) := by
  unfold calculate calculateFormula
  rw [h]
  exact outcome_map_fst_congr rfl _ _ _ _ _

theorem calculate_of_get?_eq_none (h : sheet.store.get? cell = none) (table : Table)
    (calcId : Option String) :
    (sheet.calculate cell table calcId).map (·.1) = .ok (.ofError noFormulaMessage) := by
  unfold calculate
  rw [h]
  rfl

theorem calculateFormula_of_evaluate {error : FormulaError}
    (h : evaluate formula table = .error error) (sheet : Sheet) :
    (sheet.calculateFormula formula table).map (·.1) = .ok (.ofError error.message) := by
  unfold calculateFormula outcome
  rw [h]
  rfl

theorem calculateFormula_congr (h : Formula.ofRaw formula = Formula.ofRaw other) (sheet : Sheet)
    (table : Table) :
    (sheet.calculateFormula formula table).map (·.1) =
      (sheet.calculateFormula other table).map (·.1) :=
  outcome_map_fst_congr (evaluate_congr h table) _ _ _ _ _

end Sheet

/-! ## Answers -/

/-- The answer to a calculation. -/
def Answer.ofOutcome : Except Interruption Outcome → Answer
  | .ok result => .outcome result
  | .error cause => .interrupted cause

theorem Effect.answer_ofCalculation {σ : Type} (receive : σ → Report → σ) (sheet : Sheet)
    (calculation : Except Interruption (Outcome × Report)) (receiver : σ) :
    (ofCalculation receive sheet calculation receiver).answer =
      .ofOutcome (calculation.map (·.1)) := by
  cases calculation <;> rfl

namespace Session

theorem answer_calculate (session : Session) (meanwhile : Nat → Reporter → Reporter)
    (cell : CellRef) (table : Table) (calcId : Option String) :
    (session.performAmid meanwhile (.calculate cell table calcId)).2.1 =
      .ofOutcome ((session.sheet.calculate cell table calcId).map (·.1)) :=
  Effect.answer_ofCalculation ..

theorem answer_calculateFormula (session : Session) (meanwhile : Nat → Reporter → Reporter)
    (formula : RawText) (table : Table) :
    (session.performAmid meanwhile (.calculateFormula formula table)).2.1 =
      .ofOutcome ((session.sheet.calculateFormula formula table).map (·.1)) :=
  Effect.answer_ofCalculation ..

/-- The run: a cell keeps its formula as long as no action is about it. -/
theorem get?_after_of_not_isAbout (session : Session) {steps : List Step} {cell : CellRef}
    (h : ∀ action ∈ actions steps, ¬ action.IsAbout cell) :
    (session.after steps).sheet.store.get? cell = session.sheet.store.get? cell := by
  rw [get?_after]
  -- The induction is on the actions, whatever formulas there are when they begin.
  generalize session.sheet.store.get? = formulas
  generalize actions steps = actions at h
  induction actions generalizing formulas with
  | nil => rfl
  | cons action actions ih =>
      obtain ⟨hfirst, hrest⟩ := List.forall_mem_cons.mp h
      rw [List.foldl_cons, ih _ hrest, Action.rebind_of_not_isAbout hfirst]

theorem get?_performAmid_set (session : Session) (meanwhile : Nat → Reporter → Reporter)
    (cell : CellRef) (text : Option String) :
    (session.performAmid meanwhile (.set cell text)).1.sheet.store.get? =
      (Action.set cell text).rebind session.sheet.store.get? :=
  Sheet.get?_perform (reportAmid meanwhile) (.set cell text) (0, session.reporter)

/-- Storing is transparent. A cell is set to a text in any session, and then anything happens that
is not about the formula of this cell. If the text is blank, the cell has no formula, and says so
when it is calculated. If the text is taken, also for a cell that is too far out for a message, it
is kept without the blanks around it, and calculating the cell answers what calculating the text,
blanks and all, answers, against every table, whatever happens to logging. If it is refused, then
the session stays as it is, and calculating the text fails with the message of the refusal. -/
theorem calculate_after_set (session : Session) (meanwhile : Nat → Reporter → Reporter)
    (cell : CellRef) (text : Option String) {steps : List Step}
    (hsteps : ∀ action ∈ actions steps, ¬ action.IsAbout cell) :
    let result := session.performAmid meanwhile (.set cell text)
    let taken : Prop := result.2.1 = .done ∨
      Sheet.isHuge cell = true ∧ result.2.1 = .interrupted .hugeInteger
    let later := result.1.after steps
    let stored := later.sheet.store.get? cell
    let calculated (during : Nat → Reporter → Reporter) (table : Table)
        (calcId : Option String) : Answer :=
      (later.performAmid during (.calculate cell table calcId)).2.1
    let direct (during : Nat → Reporter → Reporter) (table : Table) : Answer :=
      (later.performAmid during (.calculateFormula (.ofOption text) table)).2.1
    (Action.trimmed text = [] → taken ∧ stored = none ∧
      ∀ during table calcId,
        calculated during table calcId = .outcome (.ofError "No formula found for cell")) ∧
    (Action.trimmed text ≠ [] → taken →
      stored = some (String.ofList (Action.trimmed text)) ∧
      ∀ during otherwise table calcId,
        calculated during table calcId = direct otherwise table) ∧
    (taken ∨ ∃ fault, result.2.1 = .refused fault) ∧
    ∀ fault, result.2.1 = .refused fault →
      fault = .missingLeadingEquals ∧ result.1 = session ∧
      ∀ during table, direct during table = .outcome (.ofError fault.message) := by
  intro result taken later stored calculated direct
  have hstored : stored = (Action.set cell text).rebind session.sheet.store.get? cell := by
    rw [← get?_performAmid_set session meanwhile]
    exact get?_after_of_not_isAbout result.1 hsteps
  have hcalculated : ∀ during table calcId, calculated during table calcId =
      .ofOutcome ((later.sheet.calculate cell table calcId).map (·.1)) :=
    fun during table calcId => answer_calculate later during cell table calcId
  have hdirect : ∀ during table, direct during table =
      .ofOutcome ((later.sheet.calculateFormula (.ofOption text) table).map (·.1)) :=
    fun during table => answer_calculateFormula later during (.ofOption text) table
  obtain ⟨htaken, hrefused⟩ : (Action.IsSettable text → taken) ∧
      (¬ Action.IsSettable text → result = (session, .refused .missingLeadingEquals, [])) :=
    session.performAmid_set meanwhile cell text
  refine ⟨?_, ?_, ?_, ?_⟩
  · intro hblank
    have hnone : stored = none := by
      rw [hstored, Action.rebind_set_of_blank _ _ hblank, Function.update_self]
    refine ⟨htaken (.inl hblank), hnone, fun during table calcId => ?_⟩
    rw [hcalculated, Sheet.calculate_of_get?_eq_none hnone]
    rfl
  · intro hblank htaken
    have hequals : (Action.trimmed text).head? = some '=' := by
      by_contra hequals
      simp [taken, hrefused (not_or.mpr ⟨hblank, hequals⟩)] at htaken
    have hsome : stored = some (String.ofList (Action.trimmed text)) := by
      rw [hstored, Action.rebind_set_of_equals _ _ hequals, Function.update_self]
    refine ⟨hsome, fun during otherwise table calcId => ?_⟩
    rw [hcalculated, hdirect, Sheet.calculate_of_get? hsome,
      Sheet.calculateFormula_congr (Formula.ofRaw_trimmed hblank)]
  · by_cases hsettable : Action.IsSettable text
    · exact .inl (htaken hsettable)
    · exact .inr ⟨.missingLeadingEquals, congrArg (·.2.1) (hrefused hsettable)⟩
  · intro fault hfault
    have hnot : ¬ Action.IsSettable text := by
      intro hsettable
      rcases htaken hsettable with hdone | ⟨-, hinterrupted⟩
      · rw [hdone] at hfault
        cases hfault
      · rw [hinterrupted] at hfault
        cases hfault
    rw [hrefused hnot] at hfault
    obtain rfl := Answer.refused.inj hfault
    refine ⟨rfl, congrArg (·.1) (hrefused hnot), fun during table => ?_⟩
    rw [hdirect, Sheet.calculateFormula_of_evaluate (Sheet.evaluate_of_not_isSettable hnot table)]
    rfl

/-- A formula lacks its closing parenthesis, which is told of by its length without the blanks
around it; another cell is set and everything is recalculated in between. -/
theorem calculate_after_set_open :
    let session : Session := ⟨.start true, Reporter.start .empty "" .zero⟩
    let table : Table := ⟨[⟨"a", [some "1", none]⟩]⟩
    let still : Nat → Reporter → Reporter := fun _ reporter => reporter
    let text := "\n =SUM(A\u00a0"
    let steps : List Step := [.act (.set ⟨1, 0⟩ (some "=COUNT(A)")) still,
      .act (.recalculateAll table) still]
    let later := (session.performAmid still (.set ⟨0, 0⟩ (some text))).1.after steps
    (∀ action ∈ actions steps, ¬ action.IsAbout ⟨0, 0⟩) ∧
      (later.performAmid still (.calculate ⟨0, 0⟩ table (some "id"))).2.1 =
        (later.performAmid still (.calculateFormula (.text text) table)).2.1 ∧
      (later.performAmid still (.calculateFormula (.text text) table)).2.1 =
        .outcome (.ofError
          "Formula parse error: Formula missing closing parenthesis (at position 6)") := by
  intro session table still text steps later
  have hsteps : ∀ action ∈ actions steps, ¬ action.IsAbout ⟨0, 0⟩ := by
    simp [steps, actions, Action.IsAbout]
  obtain ⟨-, hequal⟩ := (calculate_after_set session still ⟨0, 0⟩ (some text) hsteps).2.1
    (by decide +kernel) (.inl (by decide +kernel))
  exact ⟨hsteps, hequal still still table (some "id"), by decide +kernel⟩

end Session

end ColumnFormula
