import ColumnFormula.FileTree
import ColumnFormula.Number.Reading
import ColumnFormula.Text.Lines
import ColumnFormula.Yaml.Reader

/-!
# The settings of a project

A project may have a file of settings. What the file says takes precedence over the
defaults, setting by setting, and settings that nobody asks for are kept. A file without a
value, or with one that counts as false, says nothing. What value a file has is left to a reader.
-/

namespace ColumnFormula

/-- Settings by name. -/
structure Config where
  fields : List (Yaml.Scalar × Yaml)

/-- Why the settings of a project cannot be used. -/
inductive ConfigError where
  | file (error : FileError)
  | badEncoding
  | yaml (error : YamlError)
  /-- The file holds something else than a mapping. -/
  | notMapping (kind : String)
  | badNumber
  | infiniteNumber
  /-- A setting is of a kind that is never a number. -/
  | notNumber
  deriving DecidableEq, Repr

namespace Config

def fileName : String := "tessera.yaml"

/-- The settings of a project without a file. -/
def default : Config where
  fields := [
    (.text "logging_enabled", .scalar (.bool true)),
    (.text "logging_fsync", .scalar (.bool false)),
    (.text "logging_tail_bytes", .scalar (.int 2097152)),
    (.text "integer_results", .scalar (.bool true)),
    (.text "csv_delimiter", Yaml.null)]

def notMappingMessage (kind : String) : String :=
  fileName ++ " must contain a mapping, got " ++ kind

def get? (config : Config) (name : String) : Option Yaml :=
  config.fields.lookup (.text name)

/-- Settings that take precedence over those of `config`. -/
def update (config : Config) (fields : List (Yaml.Scalar × Yaml)) : Config where
  fields := fields.foldl (fun fields field => Yaml.setField field.1 field.2 fields) config.fields

/-- A reader of settings: it makes a value of a text. -/
abbrev Reader := List Char → Except YamlError Yaml

def ofBytes (bytes : List UInt8) (read : Reader := Yaml.ofChars) : Except ConfigError Config :=
  match Text.Utf8.decode? bytes with
  | none => .error .badEncoding
  | some s =>
    match read (Text.unifyNewlines s) with
    | .error error => .error (.yaml error)
    | .ok (.mapping fields) => .ok (default.update fields)
    | .ok value => if value.isTruthy then .error (.notMapping value.kindName) else .ok default

/-- The settings of the project in a folder. -/
def load (tree : FileTree) (folder : Path) (read : Reader := Yaml.ofChars) :
    Except ConfigError Config :=
  match tree.node? (folder ++ [fileName]) with
  | none => .ok default
  | some .folder => .error (.file .isFolder)
  | some (.file bytes) => ofBytes bytes read

/-- Whether a setting counts as true. -/
def isOn (config : Config) (name : String) : Bool :=
  match config.get? name with
  | some value => value.isTruthy
  | none => true

/-- An integer setting; nothing if it is null. Numerals in texts count, fractions are cut
off. -/
def integer? (value : Yaml) : Except ConfigError (Option Int) :=
  match value with
  | .scalar .null => .ok none
  | .scalar (.bool b) => .ok (some (if b then 1 else 0))
  | .scalar (.int n) => .ok (some n)
  | .scalar (.float .nan) => .error .badNumber
  | .scalar (.float (.infinite _)) => .error .infiniteNumber
  | .scalar (.float (.finite negative units _)) => .ok (some (Binary64.truncate negative units))
  | .scalar (.text s) =>
    match readInteger? s with
    | some n => .ok (some n)
    | none => .error .badNumber
  | _ => .error .notNumber

/-- How far from its end a log file is read. -/
def tailBytes (config : Config) : Except ConfigError (Option Int) :=
  match config.get? "logging_tail_bytes" with
  | some value => integer? value
  | none => .ok none

end Config

end ColumnFormula
