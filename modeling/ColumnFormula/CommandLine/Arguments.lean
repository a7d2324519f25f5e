/-!
# Options and operands

The arguments of a command are options, whose names begin with a dash, and operands, in any
order. The value of an option follows it, or stands behind an equals sign in the same
argument. Everything behind two dashes is an operand, and so is a single dash.
-/

namespace ColumnFormula.CommandLine

/-- An option that a command knows. -/
structure OptionSpec where
  name : String
  takesValue : Bool
  deriving DecidableEq, Repr

/-- Arguments sorted into options, the last first, and operands. -/
structure Arguments where
  options : List (String × String)
  operands : List String
  deriving DecidableEq, Repr

namespace Arguments

/-- An argument in front of its first equals sign, and what stands behind it. -/
def splitName (arg : String) : String × Option String :=
  let (name, value) := arg.toList.span (· != '=')
  (String.ofList name, value.tail?.map String.ofList)

/-- Whether an argument has the form of an option. -/
def isOptionLike (arg : String) : Bool :=
  match arg.toList with
  | '-' :: _ :: _ => true
  | _ => false

def addOperand (operand : String) (arguments : Arguments) : Arguments :=
  { arguments with operands := operand :: arguments.operands }

def addOption (name value : String) (arguments : Arguments) : Arguments :=
  { arguments with options := arguments.options ++ [(name, value)] }

/-- Sort arguments. There is no result if an option is unknown, lacks its value or has one
that it does not take; a command that `keepsUnknown` options takes them as operands. -/
def sort (specs : List OptionSpec) (keepsUnknown : Bool) : List String → Option Arguments
  | [] => some ⟨[], []⟩
  | [arg] =>
    if arg = "--" then some ⟨[], []⟩
    else if isOptionLike arg then
      match specs.find? (·.name == (splitName arg).1), (splitName arg).2 with
      | some spec, some value =>
        if spec.takesValue then some ⟨[(spec.name, value)], []⟩ else none
      | some spec, none => if spec.takesValue then none else some ⟨[(spec.name, "")], []⟩
      | none, _ => if keepsUnknown then some ⟨[], [arg]⟩ else none
    else some ⟨[], [arg]⟩
  | arg :: value :: args =>
    if arg = "--" then some ⟨[], value :: args⟩
    else if isOptionLike arg then
      match specs.find? (·.name == (splitName arg).1), (splitName arg).2 with
      | some spec, some attached =>
        if spec.takesValue then
          (sort specs keepsUnknown (value :: args)).map (addOption spec.name attached)
        else none
      | some spec, none =>
        if spec.takesValue then (sort specs keepsUnknown args).map (addOption spec.name value)
        else (sort specs keepsUnknown (value :: args)).map (addOption spec.name "")
      | none, _ =>
        if keepsUnknown then (sort specs keepsUnknown (value :: args)).map (addOperand arg)
        else none
    else (sort specs keepsUnknown (value :: args)).map (addOperand arg)

/-- The last value of an option. -/
def option? (arguments : Arguments) (name : String) : Option String :=
  arguments.options.lookup name

def has (arguments : Arguments) (name : String) : Bool :=
  (arguments.option? name).isSome

end Arguments

end ColumnFormula.CommandLine
