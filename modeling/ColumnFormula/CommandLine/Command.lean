import ColumnFormula.CommandLine.Arguments
import ColumnFormula.Event
import ColumnFormula.FileTree
import ColumnFormula.Number.Reading

/-!
# Commands

There are four commands, besides the questions for the version and for help. Arguments that
make none of them are a mistake in usage. A path must lead to a file or folder that exists
when the command is read.
-/

namespace ColumnFormula.CommandLine

/-- What the command line asks for. -/
inductive Command where
  | version
  | help
  | parse (formula : String) (asJson : Bool)
  | aggregate (kind : String) (values : List String) (asJson : Bool)
  | eval (csv : Path) (formula : String) (project : Option Path) (asJson : Bool)
  | logs (project : Path) (level kind : Option String) (limit : Int) (asJson : Bool)
  deriving DecidableEq, Repr

namespace Command

/-- The path that some names lead to from a folder; empty names and single dots lead nowhere
else. -/
def followNames (tree : FileTree) : Path → List String → Option Path
  | here, [] => some here
  | here, name :: names =>
    if ¬tree.isFolder here then none
    else if name = "" ∨ name = "." then followNames tree here names
    else if name = ".." then followNames tree (FileTree.parent here) names
    else followNames tree (here ++ [name]) names

/-- Where the names in a text begin: in the root of all folders, or in the working folder. -/
def startOf (text : String) : Path :=
  if text.toList.head? = some '/' then FileTree.root else []

/-- The path that a text spells. -/
def path? (tree : FileTree) (text : String) : Option Path :=
  if text.isEmpty then none else followNames tree (startOf text) (text.splitOn "/")

def filePath? (tree : FileTree) (text : String) : Option Path := do
  let path ← path? tree text
  match tree.find path with
  | .ok (some (.file _)) => some path
  | _ => none

def folderPath? (tree : FileTree) (text : String) : Option Path := do
  let path ← path? tree text
  if tree.isFolder path then some path else none

def jsonOption : OptionSpec := ⟨"--json", false⟩

/-- The option for help, which every command knows. -/
def helpOption : OptionSpec := ⟨"--help", false⟩

def parseCommand? (args : List String) : Option Command := do
  let arguments ← Arguments.sort [jsonOption, helpOption] false args
  if arguments.has "--help" then some .help
  else
    match arguments.operands with
    | [formula] => some (.parse formula (arguments.has "--json"))
    | _ => none

/-- The command `aggregate`. Options that it does not know are values. -/
def aggregateCommand? (args : List String) : Option Command := do
  let arguments ← Arguments.sort [jsonOption, helpOption] true args
  if arguments.has "--help" then some .help
  else
    match arguments.operands with
    | kind :: values => some (.aggregate kind values (arguments.has "--json"))
    | [] => none

def evalCommand? (tree : FileTree) (args : List String) : Option Command := do
  let arguments ← Arguments.sort [⟨"--project", true⟩, jsonOption, helpOption] false args
  if arguments.has "--help" then some .help
  else
    match arguments.operands with
    | [csv, formula] =>
      let csv ← filePath? tree csv
      let project ← match arguments.option? "--project" with
        | some text => (folderPath? tree text).map some
        | none => some none
      some (.eval csv formula project (arguments.has "--json"))
    | _ => none

/-- The most events that `logs` shows if no limit is given. -/
def defaultLimit : Int := 50

def logsCommand? (tree : FileTree) (args : List String) : Option Command := do
  let specs := [⟨"--project", true⟩, ⟨"--level", true⟩, ⟨"--type", true⟩, ⟨"--limit", true⟩,
    jsonOption, helpOption]
  let arguments ← Arguments.sort specs false args
  if arguments.has "--help" then some .help
  else if ¬arguments.operands.isEmpty then none
  else
    let project ← folderPath? tree ((arguments.option? "--project").getD ".")
    let level := arguments.option? "--level"
    if level.any fun name => (EventLevel.ofName? name).isNone then none
    else
      let limit ← match arguments.option? "--limit" with
        | some text => readInteger? text
        | none => some defaultLimit
      some (.logs project level (arguments.option? "--type") limit (arguments.has "--json"))

def names : List String := ["parse", "aggregate", "eval", "logs"]

def named? (tree : FileTree) (name : String) (args : List String) : Option Command :=
  match name with
  | "parse" => parseCommand? args
  | "aggregate" => aggregateCommand? args
  | "eval" => evalCommand? tree args
  | "logs" => logsCommand? tree args
  | _ => none

/-- The first question among the options of the program itself, `asked` if there is one
before, and what stands behind these options; nothing if one of them is unknown. -/
def takeQuestions (asked : Option Command) :
    List String → Option (Option Command × List String)
  | [] => some (asked, [])
  | arg :: args =>
    if arg = "--" then some (asked, args)
    else if Arguments.isOptionLike arg then
      if arg = "--version" then takeQuestions (asked.or (some .version)) args
      else if arg = "--help" then takeQuestions (asked.or (some .help)) args
      else none
    else some (asked, arg :: args)

/-- The command that arguments ask for. If no command has the name that stands behind the
options of the program, the name may be such an option itself. -/
def ofArgs? (tree : FileTree) (args : List String) : Option Command := do
  let (asked, words) ← takeQuestions none args
  match asked, words with
  | some question, _ => some question
  | none, [] => none
  | none, name :: args =>
    if names.contains name then named? tree name args
    else (takeQuestions none (name :: args)).bind (·.1)

end Command

end ColumnFormula.CommandLine
