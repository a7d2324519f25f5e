import ColumnFormula.Yaml.Plain

/-!
# Values of what is written

A settings file is first read as nodes: scalars as they are written, lists, and pairs of
nodes. Only when all of it has been read do the nodes get values. A plain scalar may have
none, and neither has a mapping with a key of several parts, or with something else than
mappings to merge. Of several such faults the one that is least deep counts, and of these the
first.

The fields of a mapping that is merged into another one, under the key of two less-than signs,
come before the fields of that other one, which take precedence.
-/

namespace ColumnFormula.Yaml

/-- What is written. -/
inductive Node where
  /-- A text without quotes, or nothing at all. -/
  | plain (s : List Char)
  | text (s : String)
  | list (items : List Node)
  | mapping (fields : List (Node × Node))

/-- A value that may have faults. -/
inductive Draft where
  | scalar (s : Except YamlError Scalar)
  | list (items : List Draft)
  | mapping (fields : List (Except YamlError Scalar × Draft))
  /-- A mapping that is to merge something else than mappings. -/
  | unmergeable

namespace Draft

/-- The fields that a value adds to a mapping that merges it: those of a mapping, or those of
the mappings of a list, the last first. -/
def mergedFields? : Draft → Option (List (Except YamlError Scalar × Draft))
  | .mapping fields => some fields
  | .list items =>
    (items.reverse.mapM fun item =>
      match item with
      | Draft.mapping fields => some fields
      | _ => none).map List.flatten
  | _ => none

/-- Of two faults with their depths the one that is less deep, or else the first. -/
def firstFault (a b : Option (Nat × YamlError)) : Option (Nat × YamlError) :=
  match a, b with
  | some a, some b => if b.1 < a.1 then some b else some a
  | some a, none => some a
  | none, b => b

/-- The fault of a key at some depth. -/
def keyFault? (depth : Nat) (key : Except YamlError Scalar) : Option (Nat × YamlError) :=
  match key with
  | .ok _ => none
  | .error error => some (depth, error)

mutual

/-- The fault of a value at some depth that counts. -/
def fault? (depth : Nat) : Draft → Option (Nat × YamlError)
  | .scalar (.ok _) => none
  | .scalar (.error error) => some (depth, error)
  | .list items => faultInItems? (depth + 1) items
  | .mapping fields => faultInFields? (depth + 1) fields
  | .unmergeable => some (depth + 1, .malformed)
termination_by structural draft => draft

def faultInItems? (depth : Nat) : List Draft → Option (Nat × YamlError)
  | [] => none
  | item :: items => firstFault (fault? depth item) (faultInItems? depth items)
termination_by structural items => items

def faultInFields? (depth : Nat) :
    List (Except YamlError Scalar × Draft) → Option (Nat × YamlError)
  | [] => none
  | (key, value) :: fields =>
    firstFault (keyFault? depth key)
      (firstFault (fault? depth value) (faultInFields? depth fields))
termination_by structural fields => fields

end

mutual

/-- The value without regard to faults. -/
def value : Draft → Yaml
  | .scalar s => .scalar (s.toOption.getD .null)
  | .list items => .list (values items)
  | .mapping fields => .mapping (distinct (valuesOfFields fields))
  | .unmergeable => .mapping []
termination_by structural draft => draft

def values : List Draft → List Yaml
  | [] => []
  | item :: items => value item :: values items
termination_by structural items => items

def valuesOfFields : List (Except YamlError Scalar × Draft) → List (Scalar × Yaml)
  | [] => []
  | (key, draft) :: fields => (key.toOption.getD .null, value draft) :: valuesOfFields fields
termination_by structural fields => fields

end

end Draft

namespace Node

/-- Whether what stands under a key is to be merged. -/
def isMergeKey : Node → Bool
  | .plain s => s == ['<', '<']
  | _ => false

/-- The key that a node is. A sole equals sign is a text here. -/
def key : Node → Except YamlError Scalar
  | .plain ['='] => .ok (.text "=")
  | .plain s => plainScalar s
  | .text s => .ok (.text s)
  | _ => .error .malformed

mutual

/-- The value of a node, with its faults. -/
def draft : Node → Draft
  | .plain s => .scalar (plainScalar s)
  | .text s => .scalar (.ok (.text s))
  | .list items => .list (draftItems items)
  | .mapping fields =>
    match mergedIn? fields with
    | some merged => .mapping (merged ++ draftFields fields)
    | none => .unmergeable
termination_by structural node => node

def draftItems : List Node → List Draft
  | [] => []
  | item :: items => draft item :: draftItems items
termination_by structural items => items

/-- The fields that are to be merged. -/
def mergedIn? : List (Node × Node) → Option (List (Except YamlError Scalar × Draft))
  | [] => some []
  | (key, node) :: fields =>
    if key.isMergeKey then
      match (draft node).mergedFields?, mergedIn? fields with
      | some first, some others => some (first ++ others)
      | _, _ => none
    else mergedIn? fields
termination_by structural fields => fields

/-- The fields of the mapping itself. -/
def draftFields : List (Node × Node) → List (Except YamlError Scalar × Draft)
  | [] => []
  | (key, node) :: fields =>
    if key.isMergeKey then draftFields fields else (key.key, draft node) :: draftFields fields
termination_by structural fields => fields

end

/-- The value of a node, if it has no fault. -/
def toYaml (node : Node) : Except YamlError Yaml :=
  match node.draft.fault? 0 with
  | some (_, error) => .error error
  | none => .ok node.draft.value

end Node

end ColumnFormula.Yaml
