import ColumnFormula.Text.Quoted

/-!
# Why a formula fails

Each cause of failure has a code that machines compare and a message that people read.
Column and function names appear in messages in quotes.
-/

namespace ColumnFormula

/-- What is wrong with the form of a formula. -/
inductive SyntaxFault where
  /-- A fault given by its reason, and its position if that is known. -/
  | other (reason : String) (position : Option Int)
  | missingLeadingEquals
  | missingOpenParen
  | missingCloseParen (position : Option Int)
  deriving DecidableEq, Repr

/-- Why a formula, or the reading of a column, fails. -/
inductive FormulaError where
  /-- A failure outside of the engine, in its own words. -/
  | general (message : String)
  | nullInput (what : String)
  | invalidEncoding (what : String)
  | malformed (fault : SyntaxFault)
  | noNumericValues (function : String)
  | columnNotFound (name : String) (available : List String)
  /-- No aggregate has this name; a message may replace the usual one. -/
  | unknownFunction (name : String) (message : Option String)
  deriving DecidableEq, Repr

namespace SyntaxFault

def reason : SyntaxFault → String
  | .other reason _ => reason
  | .missingLeadingEquals => "Formula must start with '='"
  | .missingOpenParen => "expected function(arg), no '(' found"
  | .missingCloseParen _ => "Formula missing closing parenthesis"

/-- How many characters into the trimmed formula the fault was seen. -/
def position : SyntaxFault → Option Int
  | .other _ position => position
  | .missingLeadingEquals => some 0
  | .missingOpenParen => none
  | .missingCloseParen position => position

def code : SyntaxFault → String
  | .other .. => "parse_error"
  | .missingLeadingEquals => "missing_leading_equals"
  | .missingOpenParen => "missing_open_paren"
  | .missingCloseParen _ => "missing_close_paren"

def message (fault : SyntaxFault) : String :=
  "Formula parse error: " ++ fault.reason ++
    match fault.position with
    | none => ""
    | some position => " (at position " ++ toString position ++ ")"

end SyntaxFault

namespace FormulaError

def code : FormulaError → String
  | .general _ => "formula_error"
  | .nullInput _ => "null_input"
  | .invalidEncoding _ => "invalid_encoding"
  | .malformed fault => fault.code
  | .noNumericValues _ => "no_numeric_values"
  | .columnNotFound .. => "column_not_found"
  | .unknownFunction .. => "unknown_function"

def message : FormulaError → String
  | .general message => message
  | .nullInput what => "Null " ++ what ++ " provided"
  | .invalidEncoding what => "Invalid " ++ what ++ " encoding"
  | .malformed fault => fault.message
  | .noNumericValues function => function ++ ": no numeric values found in column"
  | .columnNotFound name available =>
    "Column " ++ Text.quoted name ++ " not found" ++
      if available.isEmpty then "" else ". Available: " ++ Text.quotedList available
  | .unknownFunction name message =>
    match message with
    | some message =>
      if message.isEmpty then "Unknown function: " ++ Text.quoted name else message
    | none => "Unknown function: " ++ Text.quoted name

/-- The message for callers that know they asked for a formula: a fault of form goes without
the words in front of its reason. -/
def bareMessage : FormulaError → String
  | .malformed fault => if fault.reason.isEmpty then fault.message else fault.reason
  | error => error.message

/-- Whether the engine reports the failure to its caller. -/
def isEngine : FormulaError → Bool
  | .general _ => false
  | _ => true

/-- Whether the failure is a fault of form. -/
def isSyntax : FormulaError → Bool
  | .malformed _ => true
  | _ => false

end FormulaError

end ColumnFormula
