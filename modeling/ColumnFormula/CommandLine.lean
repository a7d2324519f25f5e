import ColumnFormula.CommandLine.Command
import ColumnFormula.CommandLine.Ending
import ColumnFormula.Json.Plain
import ColumnFormula.Log.Project
import ColumnFormula.Text.Lines

/-!
# The command line

Each command takes the files seen from the working folder and the standard input, and leaves
the files behind as it has changed them. The commands `parse` and `aggregate` look at no file,
`eval` reads a table, and `eval` and `logs` use the settings and the log of a project. What
command arguments make, and how settings and separated values are read, is a part of what a
command finds.
-/

namespace ColumnFormula.CommandLine

/-- What a command finds: the files, the standard input, the stamp for new events, a clock, and
the readers that the program relies on. -/
structure Surroundings where
  tree : FileTree
  input : String
  now : String
  clock : Binary64
  readCommand : FileTree → List String → Option Command := Command.ofArgs?
  readSettings : Config.Reader := Yaml.ofChars
  readTable : Csv.Reader := Csv.readRecords
  limits : Limits := .own

/-- The version of the program and of its engine. -/
def versionText : String := "tessera, version 0.1.0 (core_api=1)"

/-- The forms of the commands. -/
def helpText : String :=
  "tessera --version\n" ++
  "tessera parse FORMULA [--json]\n" ++
  "tessera aggregate KIND [VALUES]... [--json]\n" ++
  "tessera eval CSV_PATH FORMULA [--project DIRECTORY] [--json]\n" ++
  "tessera logs [--project DIRECTORY] [--level LEVEL] [--type TYPE] [--limit INTEGER] [--json]"

def optionalText (text : Option String) : Json :=
  text.elim .null .str

/-! ## Formulas and aggregates -/

def runParse (formula : String) (asJson : Bool) : Ending :=
  match Formula.parse formula with
  | .error fault => fail fault.message
  | .ok formula =>
    if asJson then
      succeed (Json.obj [("function_name", .str formula.name),
        ("argument", .str formula.argument)]).toText
    else succeed formula.toWire

def inputLines (input : String) : List String :=
  let pieces := Text.splitAtEach '\n' (Text.unifyNewlines input.toList)
  let lines := if pieces.getLast? = some [] then pieces.dropLast else pieces
  lines.map String.ofList

/-- Cells from values, of which the first single dash stands for the lines of the standard
input and any other for nothing. -/
def cellsOf (lines : List String) : List String → List RawText
  | [] => []
  | value :: values =>
    if value = "-" then lines.map .text ++ cellsOf [] values
    else .text value :: cellsOf lines values

def runAggregate (input kind : String) (values : List String) (asJson : Bool) : Ending :=
  match Aggregate.ofName kind with
  | .error error => fail error.message
  | .ok aggregate =>
    match aggregate.apply (cellsOf (inputLines input) values) with
    | .error error => fail error.message
    | .ok value =>
      if asJson then
        succeed (Json.obj [("function_name", .str aggregate.name), ("value", .float value)]).toText
      else
        match aggregate.display true value with
        | .ok text => succeed text
        | .error cause => .crash (.interrupted (.display cause))

/-- How the settings of a project choose the separator of its tables. -/
def separatorOf (config : Config) : Csv.Separator :=
  match config.get? "csv_delimiter" with
  | none => .detect
  | some value =>
    if ¬value.isTruthy then .detect
    else
      match value with
      | .scalar (.text s) => .text s
      | _ => .notText

def showOutcome (outcome : Outcome) (asJson : Bool) : Ending :=
  let json := Json.obj [("result", optionalText outcome.result),
    ("error", optionalText outcome.error)]
  match asJson, outcome.error with
  | true, none => succeed json.toText
  | true, some _ => .exit 1 (printed json.toText) ""
  | false, none => succeed (outcome.result.getD "")
  | false, some message => fail message

/-- The ending with warnings on the error channel. -/
def addWarnings (warnings : Nat) : Ending → Ending
  | .exit code output errors =>
    .exit code output
      (String.join (List.replicate warnings "[tessera] logging failed\n") ++ errors)
  | ending => ending

/-- The settings of a project, or of the working folder if there is none, and a reporter,
which has a log only if there is a project. -/
def openFor (surroundings : Surroundings) (project : Option Path) :
    Except Crash (Config × Reporter) := do
  let config ← (Config.load surroundings.tree (project.getD []) surroundings.readSettings).mapError
    .config
  let reporter := Reporter.start surroundings.tree surroundings.now surroundings.clock
  match project with
  | none => .ok (config, reporter)
  | some folder =>
    match reporter.openProject folder surroundings.readSettings surroundings.limits with
    | .ok reporter => .ok (config, reporter)
    | .error (.config error) => .error (.config error)
    | .error (.file error) => .error (.file error)

/-- The outcome of a formula against the table in a file, with its report. -/
def outcomeFor (read : Csv.Reader) (config : Config) (tree : FileTree) (csv : Path)
    (formula : String) : Except Crash (Outcome × Report) := do
  let bytes ← (tree.read csv).mapError .file
  let table ← (Csv.load (separatorOf config) bytes read).mapError .csv
  let sheet := Sheet.start (config.isOn "integer_results")
  (sheet.calculateFormula (.text formula) table).mapError .interrupted

def runEval (surroundings : Surroundings) (csv : Path) (formula : String)
    (project : Option Path) (asJson : Bool) : FileTree × Ending :=
  match openFor surroundings project with
  | .error cause => (surroundings.tree, .crash cause)
  | .ok (config, reporter) =>
    match outcomeFor surroundings.readTable config reporter.tree csv formula with
    | .error cause => (reporter.tree, .crash cause)
    | .ok (outcome, report) =>
      let reporter := reporter.report report
      (reporter.tree, addWarnings reporter.warnings (showOutcome outcome asJson))

/-! ## Logs -/

/-- A field of an event in a line for people. -/
def fieldText (event : Json) (key : String) : String :=
  ((event.get? key).getD (.str "")).toPlainText

/-- A text with blanks at its end, up to a width. -/
def padded (width : Nat) (text : String) : String :=
  text ++ String.ofList (List.replicate (width - text.length) ' ')

/-- The level of an event, in a column of seven places. -/
def levelText (event : Json) : Except Crash String :=
  match (event.get? "level").getD (.str "") with
  | .str s => .ok (padded 7 s)
  | .int _ => .error .numericLevel
  | .float _ => .error .numericLevel
  | .bool _ => .error .numericLevel
  | _ => .error .formlessLevel

/-- The code of an event in brackets, if it has one. -/
def codeText (event : Json) : String :=
  match event.get? "error_code" with
  | some code => if code.isTruthy then " [" ++ code.toPlainText ++ "]" else ""
  | none => ""

/-- An event in a line for people. -/
def eventLine (event : Json) : Except Crash String :=
  if ¬event.isObj then .error (.log .notAnObject)
  else do
    let level ← levelText event
    .ok (fieldText event "ts" ++ "  " ++ level ++ " " ++ fieldText event "event_type" ++
      codeText event ++ "  " ++ fieldText event "message")

def showEvents (events : List Json) (asJson : Bool) : Except Crash Ending :=
  if asJson then .ok (succeed (Json.arr events).toIndentedText)
  else (events.mapM eventLine).map fun lines => .exit 0 (String.join (lines.map printed)) ""

/-- Show the newest events of a project. The log is read as if the project had no
settings. -/
def runLogs (surroundings : Surroundings) (project : Path) (level kind : Option String)
    (limit : Int) (asJson : Bool) : FileTree × Ending :=
  let tree := surroundings.tree
  if (tree.node? (Log.globalFile project)).isNone then (tree, succeed "No events logged.")
  else
    match Log.create tree project none surroundings.limits with
    | .error error => (tree, .crash (.file error))
    | .ok (tree, log) =>
      let events := (log.readGlobal level kind limit tree).mapError Crash.log
      match events.bind (showEvents · asJson) with
      | .ok ending => (tree, ending)
      | .error cause => (tree, .crash cause)

/-! ## All commands -/

/-- The places passed on the way from one place along some names. -/
def placesAlong (here : Path) : List String → List Path
  | [] => [here]
  | name :: names =>
    here ::
      if name = "" ∨ name = "." then placesAlong here names
      else if name = ".." then placesAlong (FileTree.parent here) names
      else placesAlong (here ++ [name]) names

/-- The places that a text leads through if it is a path. -/
def placesIn (text : String) : List Path :=
  placesAlong (Command.startOf text) (text.splitOn "/")

/-- The places that an argument may lead through, be it a path itself or the value of an
option in the same argument. -/
def placesOf (arg : String) : List Path :=
  placesIn arg ++ (Arguments.splitName arg).2.elim [] placesIn

/-- The paths that a command with these arguments may look at, each behind the folder that
holds it. -/
def watchedPaths (args : List String) : List Path :=
  ([] :: args.flatMap placesOf).flatMap fun place =>
    [place, place ++ [Config.fileName], Log.logFolder place, Log.calcFolder place,
      Log.globalFile place]

/-- The files as a command leaves them, and its ending. -/
def run (surroundings : Surroundings) (args : List String) : FileTree × Ending :=
  let tree := surroundings.tree
  match surroundings.readCommand tree args with
  | none => (tree, .usage)
  | some .version => (tree, succeed versionText)
  | some .help => (tree, succeed helpText)
  | some (.parse formula asJson) => (tree, runParse formula asJson)
  | some (.aggregate kind values asJson) =>
    (tree, runAggregate surroundings.input kind values asJson)
  | some (.eval csv formula project asJson) => runEval surroundings csv formula project asJson
  | some (.logs project level kind limit asJson) =>
    runLogs surroundings project level kind limit asJson

end ColumnFormula.CommandLine
