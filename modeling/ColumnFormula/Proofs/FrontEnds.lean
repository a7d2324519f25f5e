import ColumnFormula.Proofs.Boundary.Calls
import ColumnFormula.Proofs.CommandLine.Aggregate

/-!
# Front ends that agree

A formula against a table, the command line with cells among its arguments or on its standard
input, and a call through the boundary lead to the same aggregate of the same cells. So they all
give the same reply, whatever blanks stand around the name, and whatever the column is called.
-/

namespace ColumnFormula

open Text

/-- The outcome of a formula that gives a reply. -/
def Reply.outcome : Reply → Except Interruption Outcome
  | .result text => .ok (.ofResult text)
  | .failure message => .ok (.ofError message)
  | .silent cause => .error (.display cause)

/-! ## The formula -/

/-- A name in front of a column in parentheses is parsed into both of them. -/
theorem Formula.ofRaw_call {name : String} (hname : '(' ∉ name.toList) (column : String) :
    Formula.ofRaw (.text ("=" ++ name ++ "(" ++ column ++ ")")) =
      .ok ⟨String.ofList (upper (strip name.toList)), String.ofList (strip column.toList)⟩ := by
  have hchars : ("=" ++ name ++ "(" ++ column ++ ")").toList =
      callChars name.toList column.toList := by
    simp [callChars]
  have hstrip := (isTrimmed_callChars name.toList column.toList).strip_eq
  change (ofChars _).mapError FormulaError.malformed = _
  rw [hchars, ofChars_of_strip hstrip, ofBody_call hname]
  rfl

/-- A column that has a name is handed over as it is. -/
theorem Table.ofColumns?_singleton {column : Column} (h : column.name ≠ "") :
    Table.ofColumns? [column] = some ⟨[column]⟩ := by
  simp [Table.ofColumns?, Table.withName, h]

/-- The only column of a table is found by its own name, trimmed. -/
theorem Table.cells_singleton (column : String) (cells : List (Option String)) :
    Table.cells ⟨[⟨column, cells⟩]⟩ (String.ofList (strip column.toList)) =
      .ok (cells.map RawText.ofOption) := by
  simp [Table.cells, Table.column, Table.nameKey, Except.map]

namespace Sheet

variable {name : String} {aggregate : Aggregate} (hname : Aggregate.ofName name = .ok aggregate)
include hname

theorem evaluate_call (column : String) (cells : List String) :
    evaluate (.text ("=" ++ name ++ "(" ++ column ++ ")")) ⟨[⟨column, cells.map some⟩]⟩ =
      (aggregate.apply (cells.map .text)).map fun value =>
        ⟨aggregate, String.ofList (strip column.toList), value⟩ := by
  have hopen : '(' ∉ name.toList :=
    Aggregate.not_mem_of_ofName hname (by decide) (by decide) (by cases aggregate <;> decide)
  have hupper : Aggregate.ofName (String.ofList (upper (strip name.toList))) = .ok aggregate := by
    rw [Aggregate.upper_strip_of_ofName hname, String.ofList_toList, Aggregate.ofName_name]
  have hcells : (cells.map some).map RawText.ofOption = cells.map .text := by
    rw [List.map_map]
    rfl
  unfold evaluate
  rw [Formula.ofRaw_call hopen]
  simp only [bind, Except.bind, hupper, Table.cells_singleton, hcells]
  cases aggregate.apply (cells.map .text) <;> rfl

theorem calculateFormula_call (column : String) (cells : List String) :
    ((start true).calculateFormula (.text ("=" ++ name ++ "(" ++ column ++ ")"))
      ⟨[⟨column, cells.map some⟩]⟩).map (·.1) = (aggregate.reply (cells.map .text)).outcome := by
  unfold calculateFormula outcome Aggregate.reply
  rw [evaluate_call hname]
  cases aggregate.apply (cells.map .text) with
  | error error => rfl
  | ok value =>
      simp only [Except.map, start]
      cases aggregate.display true value <;> rfl

end Sheet

/-! ## The boundary -/

/-- A call with a count that leaves no cell out answers with the value, or with a handle to the
message of the error. -/
theorem Boundary.aggregate_named {name : String} {aggregate : Aggregate}
    (hname : Aggregate.ofName name = .ok aggregate) (table : HandleTable) (column : String)
    {cells : List RawText} {count : Int} (hcount : cells.length ≤ count) :
    Boundary.aggregate table (.named name) (.text column) (some cells) count =
      answer (fun value => ⟨value, none⟩) (fun handle => ⟨.zero, some handle⟩) table
        ((aggregate.apply cells).mapError FormulaError.message) := by
  have htake : cells.take (max count 0).toNat = cells := List.take_of_length_le (by omega)
  have hchoice : (AggregateChoice.named name).resolve = .ok aggregate := hname
  have hcolumn : RawText.text column ≠ .absent := nofun
  rw [aggregate_eq_answer, expected, if_neg hcolumn, htake, hchoice]
  change answer _ _ table ((aggregate.apply cells).mapError FormulaError.spoken) = _
  cases happly : aggregate.apply cells with
  | ok value => rfl
  | error error =>
      rw [Aggregate.eq_of_apply_eq_error happly]
      rfl

/-! ## All front ends -/

/-- All front ends agree. With a name that means an aggregate, any column and cells that are no
single dashes and each stand on one line, the formula against a table of that column, which is
the one handed over if the column has a name, has the reply as its outcome; the command prints
it, whatever reads its arguments, with the cells for its values or as the lines of its input; and
the call through the boundary has the same value, or a handle to the same message. The reply is
the text of the value, or the message that there are no numbers. The cells are the values of the
command if they stand behind two dashes. -/
theorem frontEnds_agree {name : String} {aggregate : Aggregate}
    (hname : Aggregate.ofName name = .ok aggregate) (column : String) {cells : List String}
    (hcells : ∀ cell ∈ cells, cell ≠ "-" ∧ '\r' ∉ cell.toList ∧ '\n' ∉ cell.toList) :
    let values := cells.map RawText.text
    let reply := aggregate.reply values
    let table : Table := ⟨[⟨column, cells.map some⟩]⟩
    let call := fun (handles : HandleTable) (count : Int) =>
      Boundary.aggregate handles (.named name) (.text column) (some values) count
    (column ≠ "" → Table.ofColumns? [⟨column, cells.map some⟩] = some table) ∧
    ((Sheet.start true).calculateFormula (.text ("=" ++ name ++ "(" ++ column ++ ")"))
      table).map (·.1) = reply.outcome ∧
    (∀ (surroundings : CommandLine.Surroundings) (args : List String),
      (surroundings.readCommand surroundings.tree args = some (.aggregate name cells false) →
        CommandLine.run surroundings args = (surroundings.tree, reply.ending)) ∧
      (surroundings.readCommand surroundings.tree args = some (.aggregate name ["-"] false) →
        surroundings.input ∈ CommandLine.inputsOf cells →
          CommandLine.run surroundings args = (surroundings.tree, reply.ending))) ∧
    (∀ tree, CommandLine.Command.ofArgs? tree ("aggregate" :: name :: "--" :: cells) =
        some (.aggregate name cells false) ∧
      ∀ args ∈ [["-"], ["--", "-"]],
        CommandLine.Command.ofArgs? tree ("aggregate" :: name :: args) =
          some (.aggregate name ["-"] false)) ∧
    match aggregate.apply values with
    | .ok value =>
      (∀ handles count, cells.length ≤ count → call handles count = (handles, ⟨value, none⟩)) ∧
      (cells.length < Nat.pow 2 64 →
        ∃ text, aggregate.display true value = .ok text ∧ reply = .result text)
    | .error error =>
      (∀ handles count, cells.length ≤ count → ∃ handle : Nat,
        (call handles count).2 = ⟨.zero, some handle⟩ ∧
        (call handles count).1.read? (some handle) = some error.message) ∧
      error = .noNumericValues aggregate.name ∧ reply = .failure error.message := by
  intro values reply table call
  have hlines := fun cell hcell => (hcells cell hcell).2
  have hcall : ∀ handles count, cells.length ≤ count → call handles count = _ :=
    fun handles count hcount =>
      Boundary.aggregate_named hname handles column (by simpa [values] using hcount)
  refine ⟨fun h => Table.ofColumns?_singleton h, Sheet.calculateFormula_call hname column cells,
    ?_, ?_, ?_⟩
  · intro surroundings args
    refine ⟨CommandLine.run_values hname fun cell hcell => (hcells cell hcell).1, ?_⟩
    exact fun hcommand hinput => CommandLine.run_lines hname hlines hinput hcommand
  · intro tree
    refine ⟨CommandLine.ofArgs?_operands hname tree cells, fun args hargs => ?_⟩
    exact CommandLine.ofArgs?_dash hname tree (List.mem_pair.mp hargs)
  · cases happly : aggregate.apply values with
    | ok value =>
        rw [happly] at hcall
        refine ⟨hcall, fun hlength => ?_⟩
        obtain ⟨text, htext⟩ :=
          Aggregate.exists_display_of_apply happly (by simpa [values] using hlength) true
        exact ⟨text, htext, by simp only [reply, Aggregate.reply, happly, htext]⟩
    | error error =>
        rw [happly] at hcall
        refine ⟨fun handles count hcount => ?_, Aggregate.eq_of_apply_eq_error happly, ?_⟩
        · rw [hcall handles count hcount]
          exact ⟨_, rfl, HandleTable.read?_alloc_self handles error.message⟩
        · simp only [reply, Aggregate.reply, happly]

/-- A name with a long s and blanks, a column with parentheses, and a blank cell at the end that
the lines of the input lack. -/
theorem frontEnds_agree_longS :
    let name := " \u017fum\t"
    let column := " a(b) "
    let cells := ["2", " 0.5 ", "x", ""]
    let surroundings : CommandLine.Surroundings :=
      { tree := .empty, input := "2\n 0.5 \nx\n", now := "", clock := .zero }
    (Aggregate.ofName name = .ok .sum ∧
      ∀ cell ∈ cells, cell ≠ "-" ∧ '\r' ∉ cell.toList ∧ '\n' ∉ cell.toList) ∧
    ((Sheet.start true).calculateFormula (.text ("=" ++ name ++ "(" ++ column ++ ")"))
      ⟨[⟨column, cells.map some⟩]⟩).map (·.1) = .ok (.ofResult "2.5") ∧
    CommandLine.run surroundings ("aggregate" :: name :: "--" :: cells) =
      (.empty, .exit 0 "2.5\n" "") ∧
    CommandLine.run surroundings ["aggregate", name, "-"] = (.empty, .exit 0 "2.5\n" "") := by
  intro name column cells surroundings
  have hname : Aggregate.ofName name = .ok .sum := by decide
  have hcells : ∀ cell ∈ cells, cell ≠ "-" ∧ '\r' ∉ cell.toList ∧ '\n' ∉ cell.toList := by decide
  have hreply : Aggregate.sum.reply (cells.map .text) = .result "2.5" := by decide +kernel
  obtain ⟨-, hformula, hcommand, hargs, -⟩ := frontEnds_agree hname column hcells
  obtain ⟨hoperands, hdash⟩ := hargs .empty
  have hvalues := (hcommand surroundings _).1 hoperands
  have hlines := (hcommand surroundings _).2 (hdash ["-"] (by decide)) (by decide)
  rw [hreply] at hformula hvalues hlines
  exact ⟨⟨hname, hcells⟩, hformula, hvalues, hlines⟩

end ColumnFormula
