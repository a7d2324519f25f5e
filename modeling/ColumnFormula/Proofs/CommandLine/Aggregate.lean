import ColumnFormula.CommandLine
import ColumnFormula.Proofs.Aggregate.Replies

/-!
# The command for aggregates

The command takes its cells from its values or from the lines of the standard input. It prints the
reply, whether the last line has its line feed or not: a blank line that is lost without it would
add nothing. Arguments behind two dashes are all values.
-/

namespace ColumnFormula

open Text

/-- How the command ends that gives a reply. -/
def Reply.ending : Reply → CommandLine.Ending
  | .result text => .exit 0 (text ++ "\n") ""
  | .failure message => .exit 1 "" ("Error: " ++ message ++ "\n")
  | .silent cause => .crash (.interrupted (.display cause))

namespace CommandLine

/-! ## Printing -/

theorem withoutControls_eq_self {s : List Char} (h : '\x1b' ∉ s) (fuel : Nat) :
    withoutControls fuel s = s := by
  induction fuel generalizing s with
  | zero => rfl
  | succ fuel ih =>
      rw [withoutControls.eq_def]
      split
      next heq => cases heq
      next => rfl
      -- A control begins with an escape.
      next => simp at h
      next =>
        rw [List.mem_cons, not_or] at h
        obtain rfl := Nat.succ.inj ‹_›
        rw [ih h.2]

theorem printed_of_isPlain {text : String} (h : ∀ c ∈ text.toList, IsPlain c) :
    printed text = text ++ "\n" := by
  have hescape : '\x1b' ∉ text.toList := fun hmem => absurd (h _ hmem) (by decide)
  rw [printed, withoutControls_eq_self hescape, String.ofList_toList]

theorem succeed_of_isPlain {text : String} (h : ∀ c ∈ text.toList, IsPlain c) :
    succeed text = (Reply.result text).ending := by
  rw [succeed, printed_of_isPlain h, Reply.ending]

theorem fail_of_isPlain {message : String} (h : ∀ c ∈ message.toList, IsPlain c) :
    fail message = (Reply.failure message).ending := by
  have herror : ∀ c ∈ ("Error: " ++ message).toList, IsPlain c := by
    rw [String.toList_append, List.forall_mem_append]
    exact ⟨isPlain_of_all (by decide), h⟩
  rw [fail, printed_of_isPlain herror, Reply.ending]

/-! ## Arguments -/

theorem Arguments.isOptionLike_eq_false {arg : String} (h : '-' ∉ arg.toList) :
    Arguments.isOptionLike arg = false := by
  unfold Arguments.isOptionLike
  split
  next heq => simp [heq] at h
  · rfl

theorem Arguments.sort_operand (specs : List OptionSpec) (keepsUnknown : Bool) {arg : String}
    (hdashes : arg ≠ "--") (hoption : Arguments.isOptionLike arg = false) (args : List String) :
    Arguments.sort specs keepsUnknown (arg :: args) =
      (Arguments.sort specs keepsUnknown args).map (Arguments.addOperand arg) := by
  cases args with
  | nil => simp [Arguments.sort, hdashes, hoption, Arguments.addOperand]
  | cons value args =>
      rw [Arguments.sort, if_neg hdashes, hoption]
      rfl

/-- Behind two dashes there are operands only. -/
theorem Arguments.sort_dashes (specs : List OptionSpec) (keepsUnknown : Bool) (args : List String) :
    Arguments.sort specs keepsUnknown ("--" :: args) = some ⟨[], args⟩ := by
  cases args with
  | nil => rfl
  | cons value args => rw [Arguments.sort, if_pos rfl]

/-- Arguments that are operands only make the command with its kind and its values. -/
theorem Command.ofArgs?_of_sort {tree : FileTree} {args : List String} {kind : String}
    {values : List String} (h : Arguments.sort [Command.jsonOption, Command.helpOption] true args =
      some ⟨[], kind :: values⟩) :
    Command.ofArgs? tree ("aggregate" :: args) = some (.aggregate kind values false) := by
  change Command.aggregateCommand? args = _
  rw [Command.aggregateCommand?, h]
  rfl

/-! ## Cells -/

theorem cellsOf_of_ne_dash (lines : List String) {values : List String}
    (h : ∀ value ∈ values, value ≠ "-") : cellsOf lines values = values.map .text := by
  induction values with
  | nil => rfl
  | cons value values ih =>
      obtain ⟨hvalue, hrest⟩ := List.forall_mem_cons.mp h
      rw [cellsOf, if_neg hvalue, ih hrest, List.map_cons]

theorem cellsOf_dash (lines : List String) : cellsOf lines ["-"] = lines.map .text := by
  simp [cellsOf]

/-! ## Lines -/

/-- The texts that hold some lines: each with a line feed behind it, or all but the last. -/
def inputsOf (lines : List String) : List String :=
  [String.join (lines.map (· ++ "\n")), "\n".intercalate lines]

theorem intercalate_concat (sep : String) (lines : List String) (last : String) :
    sep.intercalate (lines ++ [last]) = String.join (lines.map (· ++ sep)) ++ last := by
  induction lines with
  | nil => simp
  | cons line lines ih =>
      rw [List.cons_append, String.intercalate_cons_of_ne_nil (by simp), ih, List.map_cons,
        String.join_cons]
      simp only [String.append_assoc]

theorem splitAtEach_join {lines : List String} {last : String}
    (hlines : ∀ line ∈ lines, '\r' ∉ line.toList ∧ '\n' ∉ line.toList)
    (hlast : '\r' ∉ last.toList ∧ '\n' ∉ last.toList) :
    splitAtEach '\n' (unifyNewlines (String.join (lines.map (· ++ "\n")) ++ last).toList) =
      lines.map String.toList ++ [last.toList] := by
  have hinput : (String.join (lines.map (· ++ "\n")) ++ last).toList =
      (lines.map String.toList).flatMap (· ++ ['\n']) ++ last.toList := by
    rw [String.toList_append, String.toList_join, List.flatMap_map, List.flatMap_map]
    simp only [String.toList_append]
    rfl
  have hreturn : '\r' ∉ (lines.map String.toList).flatMap (· ++ ['\n']) ++ last.toList := by
    rw [List.flatMap_map]
    simp only [List.mem_append, List.mem_flatMap, not_or]
    refine ⟨?_, hlast.1⟩
    rintro ⟨line, hline, hmem | hmem⟩
    · exact (hlines line hline).1 hmem
    · exact absurd hmem (by decide)
  have hfeed : ∀ piece ∈ lines.map String.toList, '\n' ∉ piece := by
    rintro _ hpiece
    obtain ⟨line, hline, rfl⟩ := List.mem_map.mp hpiece
    exact (hlines line hline).2
  rw [hinput, unifyNewlines_eq_self hreturn, splitAtEach_flatMap hfeed hlast.2]

/-- What stands behind the last line feed is a line unless it is nothing. -/
theorem inputLines_join {lines : List String} {last : String}
    (hlines : ∀ line ∈ lines, '\r' ∉ line.toList ∧ '\n' ∉ line.toList)
    (hlast : '\r' ∉ last.toList ∧ '\n' ∉ last.toList) :
    inputLines (String.join (lines.map (· ++ "\n")) ++ last) =
      if last = "" then lines else lines ++ [last] := by
  have htexts : ∀ lines : List String, (lines.map String.toList).map String.ofList = lines := by
    intro lines
    simp [Function.comp_def]
  unfold inputLines
  rw [splitAtEach_join hlines hlast]
  simp only [List.getLast?_concat, List.dropLast_concat, Option.some_inj, String.toList_eq_nil_iff]
  split
  · exact htexts lines
  · rw [List.map_append, htexts, List.map_singleton, String.ofList_toList]

/-- A blank line at the end may be lost, but nothing that counts. -/
theorem reply_inputLines (aggregate : Aggregate) {lines : List String}
    (hlines : ∀ line ∈ lines, '\r' ∉ line.toList ∧ '\n' ∉ line.toList) {input : String}
    (hinput : input ∈ inputsOf lines) :
    aggregate.reply ((inputLines input).map .text) = aggregate.reply (lines.map .text) := by
  rw [inputsOf, List.mem_pair] at hinput
  rcases hinput with rfl | rfl
  · have hall : inputLines (String.join (lines.map (· ++ "\n")) ++ "") = lines :=
      (inputLines_join hlines (by decide)).trans (if_pos rfl)
    rw [String.append_empty] at hall
    rw [hall]
  · rcases List.eq_nil_or_concat lines with rfl | ⟨front, last, rfl⟩
    · rfl
    rw [List.concat_eq_append] at hlines ⊢
    have hfront := fun line hline => hlines line (List.mem_append_left [last] hline)
    rw [intercalate_concat, inputLines_join hfront (hlines last (by simp))]
    split
    next hempty =>
      rw [hempty, List.map_append]
      exact (aggregate.reply_append_blank _ (by decide)).symm
    next => rfl

/-! ## Runs of the command -/

section Runs

variable {name : String} {aggregate : Aggregate} (hname : Aggregate.ofName name = .ok aggregate)
include hname

theorem runAggregate_eq (input : String) (values : List String) :
    runAggregate input name values false =
      (aggregate.reply (cellsOf (inputLines input) values)).ending := by
  unfold runAggregate
  rw [hname]
  dsimp only
  generalize cellsOf (inputLines input) values = cells
  cases happly : aggregate.apply cells with
  | error error =>
      have hreply : aggregate.reply cells = .failure error.message := by
        rw [Aggregate.reply, happly]
      rw [hreply]
      exact fail_of_isPlain (Aggregate.isPlain_failure hreply)
  | ok value =>
      cases hdisplay : aggregate.display true value with
      | error cause =>
          have hreply : aggregate.reply cells = .silent cause := by
            simp only [Aggregate.reply, happly, hdisplay]
          rw [hreply]
          simp only [hdisplay, Bool.false_eq_true, if_false]
          rfl
      | ok text =>
          have hreply : aggregate.reply cells = .result text := by
            simp only [Aggregate.reply, happly, hdisplay]
          rw [hreply]
          simp only [hdisplay, Bool.false_eq_true, if_false]
          exact succeed_of_isPlain (Aggregate.isPlain_result hreply)

/-- A name that means an aggregate is an operand. -/
theorem sort_name (args : List String) :
    Arguments.sort [Command.jsonOption, Command.helpOption] true (name :: args) =
      (Arguments.sort [Command.jsonOption, Command.helpOption] true args).map
        (Arguments.addOperand name) := by
  have hdash : '-' ∉ name.toList :=
    Aggregate.not_mem_of_ofName hname (by decide) (by decide) (by cases aggregate <;> decide)
  refine Arguments.sort_operand _ _ ?_ (Arguments.isOptionLike_eq_false hdash) args
  rintro rfl
  exact hdash (by decide)

/-- Behind two dashes all arguments are values. -/
theorem ofArgs?_operands (tree : FileTree) (cells : List String) :
    Command.ofArgs? tree ("aggregate" :: name :: "--" :: cells) =
      some (.aggregate name cells false) := by
  have hsort := sort_name hname ("--" :: cells)
  rw [Arguments.sort_dashes] at hsort
  exact Command.ofArgs?_of_sort hsort

/-- A single dash is a value, whether it stands behind two dashes or not. -/
theorem ofArgs?_dash (tree : FileTree) {args : List String}
    (hargs : args = ["-"] ∨ args = ["--", "-"]) :
    Command.ofArgs? tree ("aggregate" :: name :: args) = some (.aggregate name ["-"] false) := by
  have hsort : Arguments.sort [Command.jsonOption, Command.helpOption] true (name :: args) =
      some ⟨[], [name, "-"]⟩ := by
    rw [sort_name hname]
    rcases hargs with rfl | rfl <;> rfl
  exact Command.ofArgs?_of_sort hsort

variable {surroundings : Surroundings} {args : List String}

theorem run_values {cells : List String} (hcells : ∀ cell ∈ cells, cell ≠ "-")
    (hcommand : surroundings.readCommand surroundings.tree args =
      some (.aggregate name cells false)) :
    run surroundings args = (surroundings.tree, (aggregate.reply (cells.map .text)).ending) := by
  rw [run, hcommand]
  dsimp only
  rw [runAggregate_eq hname, cellsOf_of_ne_dash _ hcells]

theorem run_lines {lines : List String}
    (hlines : ∀ line ∈ lines, '\r' ∉ line.toList ∧ '\n' ∉ line.toList)
    (hinput : surroundings.input ∈ inputsOf lines)
    (hcommand : surroundings.readCommand surroundings.tree args =
      some (.aggregate name ["-"] false)) :
    run surroundings args = (surroundings.tree, (aggregate.reply (lines.map .text)).ending) := by
  rw [run, hcommand]
  dsimp only
  rw [runAggregate_eq hname, cellsOf_dash, reply_inputLines aggregate hlines hinput]

end Runs

end CommandLine

end ColumnFormula
