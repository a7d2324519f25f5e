import ColumnFormula.Event.Redaction
import ColumnFormula.Log

/-!
# Reporting events

What is reported goes, redacted and stamped, to the log that is attached, and is lost if
none is. Reporting never fails: a log that refuses an event at most causes a warning on the
error channel, and warnings less than a minute after the last one are held back.
-/

namespace ColumnFormula

/-- An event without a stamp, and the id of the calculation that it belongs to. -/
structure Report where
  level : EventLevel
  kind : EventKind
  message : String
  context : List (String × Json)
  /-- Fields of the context that are logged as the texts that their bytes encode. -/
  encoded : List (String × List UInt8)
  errorCode : Option String
  calcId : Option String

/-- Where reports go. Times are in seconds of a clock that never runs backward; the last
warning counts as given at zero before there is one. -/
structure Reporter where
  tree : FileTree
  log : Option Log
  /-- The stamp of new events. -/
  now : String
  clock : Binary64
  lastWarning : Binary64
  /-- How many warnings were given. -/
  warnings : Nat

namespace Report

/-- The texts of encoded fields, if all of them encode one. -/
def decodeFields : List (String × List UInt8) → Option (List (String × Json))
  | [] => some []
  | (key, bytes) :: fields =>
    match Text.Utf8.decode? bytes, decodeFields fields with
    | some s, some fields => some ((key, .str (String.ofList s)) :: fields)
    | _, _ => none

/-- The event of a report with a given context. -/
def toEvent (now : String) (context : List (String × Json)) (report : Report) : Event where
  schemaVersion := 1
  stamp := now
  level := report.level
  kind := report.kind
  context := context
  message := report.message
  errorCode := report.errorCode

end Report

namespace Reporter

/-- Seconds for which no warning follows a warning. -/
def quietSeconds : Binary64 := .ofNat 60

/-- A reporter without a log. -/
def start (tree : FileTree) (now : String) (clock : Binary64) : Reporter where
  tree := tree
  log := none
  now := now
  clock := clock
  lastWarning := .zero
  warnings := 0

/-- Give a warning unless the last one is too recent. -/
def warn (reporter : Reporter) : Reporter :=
  if (reporter.clock.sub reporter.lastWarning).lt quietSeconds then reporter
  else { reporter with lastWarning := reporter.clock, warnings := reporter.warnings + 1 }

/-- Write an event to the attached log. -/
def write (reporter : Reporter) (event : Event) (calcId : Option String) : Reporter :=
  match reporter.log with
  | none => reporter
  | some log =>
    match log.write event calcId reporter.tree with
    | (tree, none) => { reporter with tree }
    | (tree, some _) => { reporter with tree }.warn

/-- Redact an event and write it. An event that cannot be redacted counts as refused. -/
def emit (reporter : Reporter) (event : Event) (calcId : Option String) : Reporter :=
  match reporter.log with
  | none => reporter
  | some log =>
    match Redaction.redact? event.context log.limits.calls with
    | some context => reporter.write { event with context } calcId
    | none => reporter.warn

/-- Redact the event of a report and write it. There is nothing nested in the context of a report,
so it is redacted within any limits. Encoded fields are not cut; if one of them encodes no text,
the report counts as refused. -/
def report (reporter : Reporter) (report : Report) : Reporter :=
  match Report.decodeFields report.encoded with
  | some fields =>
    reporter.write (report.toEvent reporter.now (Redaction.redact report.context ++ fields))
      report.calcId
  | none => if reporter.log.isNone then reporter else reporter.warn

end Reporter

end ColumnFormula
