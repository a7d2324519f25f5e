import ColumnFormula.Config
import ColumnFormula.Log.Query
import ColumnFormula.Sheet.Calculation
import ColumnFormula.Table.Csv

/-!
# How commands end

A command prints its answer and exits with zero, prints an error and exits with one, or ends
with a failure that it does not handle. What is printed goes through no terminal, so the
controls of terminals are taken out of it.
-/

namespace ColumnFormula.CommandLine

/-- A failure that a command does not handle. -/
inductive Crash where
  | config (error : ConfigError)
  | file (error : FileError)
  | csv (error : Csv.CsvError)
  | log (error : LogError)
  | interrupted (cause : Interruption)
  /-- A logged level is a number where a text is needed. -/
  | numericLevel
  /-- A logged level is neither a text nor a number. -/
  | formlessLevel
  deriving DecidableEq, Repr

def Crash.message : Crash → String
  | .config (.notMapping kind) => Config.notMappingMessage kind
  | .config _ => "The settings of the project cannot be used"
  | .file _ => "A file or folder cannot be used"
  | .csv _ => "The table cannot be read"
  | .log _ => "The log cannot be read"
  | .interrupted _ => "The result has no text"
  | .numericLevel => "The level of an event is a number"
  | .formlessLevel => "The level of an event is no text"

/-- How a command ends. -/
inductive Ending where
  | exit (code : Nat) (output errors : String)
  | usage
  | crash (cause : Crash)
  deriving DecidableEq, Repr

/-- Whether a character may stand first behind the start of a terminal control. -/
def isControlParameter (c : Char) : Bool :=
  '0' ≤ c && c ≤ '?'

/-- Whether a character may stand in front of the end of a terminal control. -/
def isControlFiller (c : Char) : Bool :=
  ' ' ≤ c && c ≤ '/'

/-- Whether a character ends a terminal control. -/
def isControlEnd (c : Char) : Bool :=
  '@' ≤ c && c ≤ '~'

/-- Text without the controls of terminals: an escape, a bracket, parameters, fillers and a
character that ends them. -/
def withoutControls : Nat → List Char → List Char
  | 0, s => s
  | _ + 1, [] => []
  | fuel + 1, '\x1b' :: '[' :: s =>
    match (s.dropWhile isControlParameter).dropWhile isControlFiller with
    | c :: rest =>
      if isControlEnd c then withoutControls fuel rest
      else '\x1b' :: withoutControls fuel ('[' :: s)
    | [] => '\x1b' :: withoutControls fuel ('[' :: s)
  | fuel + 1, c :: s => c :: withoutControls fuel s

def printed (text : String) : String :=
  String.ofList (withoutControls text.length text.toList) ++ "\n"

def succeed (text : String) : Ending :=
  .exit 0 (printed text) ""

def fail (message : String) : Ending :=
  .exit 1 "" (printed ("Error: " ++ message))

end ColumnFormula.CommandLine
