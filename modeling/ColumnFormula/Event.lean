import ColumnFormula.Json

/-!
# Events

Whatever happens to formulas is reported as an event: what happened, how grave it is, a
message for people and a context for programs. Events have one form, which is the form of a
line in a log.
-/

namespace ColumnFormula

/-- How grave an event is. -/
inductive EventLevel where
  | info | warning | error
  deriving DecidableEq, Repr

/-- What happened. -/
inductive EventKind where
  | formulaSet | formulaCleared | formulaCalculated | formulaFailed
  | recalcStarted | recalcCompleted
  deriving DecidableEq, Repr

namespace EventLevel

/-- The levels, the least grave first. -/
def all : List EventLevel := [.info, .warning, .error]

def name : EventLevel → String
  | .info => "info"
  | .warning => "warning"
  | .error => "error"

def ofName? (name : String) : Option EventLevel :=
  all.find? (·.name == name)

end EventLevel

namespace EventKind

def all : List EventKind :=
  [.formulaSet, .formulaCleared, .formulaCalculated, .formulaFailed, .recalcStarted,
    .recalcCompleted]

def name : EventKind → String
  | .formulaSet => "formula_set"
  | .formulaCleared => "formula_cleared"
  | .formulaCalculated => "formula_calculated"
  | .formulaFailed => "formula_failed"
  | .recalcStarted => "recalc_started"
  | .recalcCompleted => "recalc_completed"

def ofName? (name : String) : Option EventKind :=
  all.find? (·.name == name)

end EventKind

/-- An event. The stamp says when it happened. -/
structure Event where
  schemaVersion : Int
  stamp : String
  level : EventLevel
  kind : EventKind
  context : List (String × Json)
  message : String
  errorCode : Option String

namespace Event

def optionalText : Option String → Json
  | none => .null
  | some s => .str s

def toFields (event : Event) : List (String × Json) :=
  [("schema_version", .int event.schemaVersion),
    ("ts", .str event.stamp),
    ("level", .str event.level.name),
    ("event_type", .str event.kind.name),
    ("context", .obj event.context),
    ("message", .str event.message),
    ("error_code", optionalText event.errorCode)]

/-- How many values may stand around a part of a context, the context itself included, if nothing
else is said. -/
def maxHeight : Nat := 255

/-- Whether values are nested too deeply in the context for an event to be written. -/
def isTooDeep (event : Event) (height : Nat := maxHeight) : Bool :=
  height < (Json.obj event.context).height

def toJson (event : Event) : Json :=
  .obj event.toFields

end Event

end ColumnFormula
