import ColumnFormula.FormulaError
import ColumnFormula.RawText
import ColumnFormula.Text.CaseMap

/-!
# Formulas

A formula is one call, `=NAME(ARGUMENT)`. The first opening parenthesis after the equals
sign and the last character of the formula delimit the argument; whatever stands between
them, parentheses included, is the argument. Blanks around each part do not count, and the
name is put into upper case but not compared with any list of names.
-/

namespace ColumnFormula

/-- A formula split into its function name and its argument. -/
structure Formula where
  name : String
  argument : String
  deriving DecidableEq, Repr

namespace Formula

/-- What stands in front of the first occurrence of a character, and what stands behind it. -/
def cutAt (sep : Char) : List Char → Option (List Char × List Char)
  | [] => none
  | c :: s =>
    if c = sep then some ([], s) else (cutAt sep s).map fun (before, after) => (c :: before, after)

/-- The call behind the equals sign of a formula of `length` characters. -/
def ofBody (length : Nat) (body : List Char) : Except SyntaxFault Formula :=
  match cutAt '(' body with
  | none => .error .missingOpenParen
  | some (before, after) =>
    if after.getLast? = some ')' then
      .ok {
        name := String.ofList (Text.upper (Text.strip before))
        argument := String.ofList (Text.strip after.dropLast) }
    else .error (.missingCloseParen (some length))

/-- The formula that a text spells. -/
def ofChars (s : List Char) : Except SyntaxFault Formula :=
  match Text.strip s with
  | '=' :: rest => ofBody (rest.length + 1) (Text.strip rest)
  | _ => .error .missingLeadingEquals

def parse (s : String) : Except SyntaxFault Formula :=
  ofChars s.toList

/-- The formula that a host hands over. -/
def ofRaw (raw : RawText) : Except FormulaError Formula :=
  match raw with
  | .absent => .error (.nullInput "formula string")
  | raw =>
    match raw.chars? with
    | none => .error (.invalidEncoding "formula")
    | some s => (ofChars s).mapError .malformed

/-- The text `NAME:ARGUMENT` that names a call to other programs. -/
def toWire (formula : Formula) : String :=
  formula.name ++ ":" ++ formula.argument

/-- The formula written with no blank that could be left out. -/
def render (formula : Formula) : String :=
  "=" ++ formula.name ++ "(" ++ formula.argument ++ ")"

end Formula

end ColumnFormula
