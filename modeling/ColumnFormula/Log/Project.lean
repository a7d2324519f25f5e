import ColumnFormula.Config
import ColumnFormula.Log.Reporter

/-!
# The log of a project

The settings of a project say whether its events are logged and how far its log is read
back. A project whose settings cannot be used leaves the reporter as it was.
-/

namespace ColumnFormula

/-- Why a project cannot be opened for logging. -/
inductive OpenError where
  | config (error : ConfigError)
  | file (error : FileError)
  deriving DecidableEq, Repr

namespace Reporter

/-- Attach a log for the project in a folder, which is read so far from its end. -/
def attach (reporter : Reporter) (folder : Path) (tailBytes : Option Int)
    (limits : Limits := .own) : Except FileError Reporter :=
  (Log.create reporter.tree folder tailBytes limits).map fun (tree, log) =>
    { reporter with tree, log := some log }

/-- Let later reports be lost. -/
def detach (reporter : Reporter) : Reporter :=
  { reporter with log := none }

/-- Attach the log that the settings of the project in a folder ask for, if any. -/
def openProject (reporter : Reporter) (folder : Path) (read : Config.Reader := Yaml.ofChars)
    (limits : Limits := .own) : Except OpenError Reporter :=
  match Config.load reporter.tree folder read with
  | .error error => .error (.config error)
  | .ok config =>
    if config.isOn "logging_enabled" then
      match config.tailBytes with
      | .error error => .error (.config error)
      | .ok tailBytes => (reporter.attach folder tailBytes limits).mapError .file
    else .ok reporter.detach

end Reporter

end ColumnFormula
