import ColumnFormula.Yaml.Node
import ColumnFormula.Yaml.Text

/-!
# Reading a settings file

A document is a value: a scalar, a list or mapping by indentation, or a list or mapping in
brackets. A key stands on one line with the colon behind it. By indentation, a field or item
begins a line unless it is the first one. Lists that are the value of a key may begin in the
column of the key. Aliases, tags and further documents are refused.
-/

namespace ColumnFormula.Yaml

/-- The characters of settings files: no controls but tab and line breaks. -/
def isAllowed (c : Char) : Bool :=
  let n := c.toNat
  n == 9 || n == 10 || n == 13 || (0x20 ≤ n && n ≤ 0x7E) || n == 0x85 ||
    (0xA0 ≤ n && n ≤ 0xD7FF) || (0xE000 ≤ n && n ≤ 0xFFFD) || 0x10000 ≤ n

/-- The most characters that a key may have, blanks behind it included. -/
def maxKeyLength : Nat := 1024

/-- Whether what stands from `start` to `stop` may be a key. -/
def mayBeKey (start stop : Cursor) : Bool :=
  start.line == stop.line && start.rest.length - stop.rest.length ≤ maxKeyLength

/-- How many lists and mappings may stand in one another. -/
def maxDepth : Nat := 488

/-- A quoted or plain scalar, with the place of the token behind it. -/
def readScalar (inFlow : Bool) (minColumn : Nat) (cursor : Cursor) :
    Except YamlError (Node × Cursor) :=
  let fuel := cursor.rest.length + 1
  match cursor.rest with
  | [] => .error .malformed
  | c :: s =>
    if c = '"' ∨ c = '\'' then
      (readQuoted c fuel cursor.next).map fun (text, cursor) =>
        (.text (String.ofList text), cursor.token)
    else if startsPlain inFlow (c :: s) then
      let (text, cursor) := readPlain inFlow minColumn fuel cursor
      .ok (.plain text, cursor.token)
    else .error .malformed

mutual

/-- What stands between brackets, with so many more levels of them. -/
def readFlow : Nat → (depth : Nat) → Cursor → Except YamlError (Node × Cursor)
  | 0, _, _ => .error .malformed
  | fuel + 1, depth, cursor =>
    match cursor.rest, depth with
    | '[' :: _, depth + 1 =>
      (readFlowItems fuel depth cursor.next.token).map fun (items, cursor) =>
        (.list items, cursor)
    | '\x7b' :: _, depth + 1 =>
      (readFlowFields fuel depth cursor.next.token).map fun (fields, cursor) =>
        (.mapping fields, cursor)
    | '[' :: _, 0 => .error .tooDeep
    | '\x7b' :: _, 0 => .error .tooDeep
    | _, _ => if cursor.atEnd then .error .malformed else readScalar true 0 cursor

/-- The value behind a colon between brackets, which may be missing. -/
def readFlowValue : Nat → (depth : Nat) → Cursor → Except YamlError (Node × Cursor)
  | 0, _, _ => .error .malformed
  | fuel + 1, depth, cursor =>
    match cursor.rest with
    | ',' :: _ => .ok (.plain [], cursor)
    | ']' :: _ => .ok (.plain [], cursor)
    | '\x7d' :: _ => .ok (.plain [], cursor)
    | _ => readFlow fuel depth cursor

/-- The items of a list up to its closing bracket. An item with a colon behind it is a
mapping of its own. -/
def readFlowItems : Nat → (depth : Nat) → Cursor → Except YamlError (List Node × Cursor)
  | 0, _, _ => .error .malformed
  | fuel + 1, depth, start =>
    match start.rest with
    | ']' :: _ => .ok ([], start.next.token)
    | _ => do
      let (item, cursor) ← readFlow fuel depth start
      let (item, cursor) ←
        if cursor.atColon true then
          if mayBeKey start cursor then do
            let (value, cursor) ← readFlowValue fuel (depth - 1) cursor.next.token
            .ok (.mapping [(item, value)], cursor)
          else .error .malformed
        else .ok (item, cursor)
      match cursor.rest with
      | ',' :: _ =>
        (readFlowItems fuel depth cursor.next.token).map fun (items, cursor) =>
          (item :: items, cursor)
      | ']' :: _ => .ok ([item], cursor.next.token)
      | _ => .error .malformed

/-- The fields of a mapping up to its closing brace. -/
def readFlowFields : Nat → (depth : Nat) → Cursor →
    Except YamlError (List (Node × Node) × Cursor)
  | 0, _, _ => .error .malformed
  | fuel + 1, depth, start =>
    match start.rest with
    | '\x7d' :: _ => .ok ([], start.next.token)
    | _ => do
      let (key, cursor) ← readFlow fuel depth start
      let (value, cursor) ←
        if cursor.atColon true then
          if mayBeKey start cursor then readFlowValue fuel depth cursor.next.token
          else .error .malformed
        else .ok (.plain [], cursor)
      match cursor.rest with
      | ',' :: _ =>
        (readFlowFields fuel depth cursor.next.token).map fun (fields, cursor) =>
          ((key, value) :: fields, cursor)
      | '\x7d' :: _ => .ok ([(key, value)], cursor.next.token)
      | _ => .error .malformed

end

/-- What is written without indentation: in brackets, quoted or plain. -/
def readInline (depth : Nat) (indent : Int) (cursor : Cursor) :
    Except YamlError (Node × Cursor) :=
  match cursor.rest with
  | '[' :: _ => readFlow (2 * cursor.rest.length + 2) depth cursor
  | '\x7b' :: _ => readFlow (2 * cursor.rest.length + 2) depth cursor
  | _ => readScalar false (indent + 1).toNat cursor

mutual

/-- What begins here, inside of a value at column `indent`, with so many more levels. It may
be a list or a mapping by indentation only if `mayNest` says so. -/
def readNode : Nat → (depth : Nat) → (indent : Int) → (mayNest : Bool) → Cursor →
    Except YamlError (Node × Cursor)
  | 0, _, _, _, _ => .error .malformed
  | fuel + 1, depth, indent, mayNest, cursor =>
    match cursor.rest with
    | [] => .ok (.plain [], cursor)
    | c :: _ =>
      if cursor.atItem then
        if mayNest then
          (readItems fuel depth cursor.column false cursor).map fun (items, cursor) =>
            (.list items, cursor)
        else .error .malformed
      else if c = '|' ∨ c = '>' then
        (readBlock (c = '>') indent cursor.next).map fun (text, cursor) =>
          (.text (String.ofList text), cursor.token)
      else do
        let (node, behind) ← readInline depth indent cursor
        if behind.atColon false && !behind.atEnd then
          if mayNest && mayBeKey cursor behind then
            (readFields fuel depth cursor.column cursor).map fun (fields, cursor) =>
              (.mapping fields, cursor)
          else .error .malformed
        else .ok (node, behind)

/-- The items of a list at a column. A list in the column of its key ends where no further
item begins. -/
def readItems : Nat → (depth column : Nat) → (atKey : Bool) → Cursor →
    Except YamlError (List Node × Cursor)
  | 0, _, _, _, _ => .error .malformed
  | _, 0, _, _, _ => .error .tooDeep
  | fuel + 1, depth + 1, column, atKey, cursor => do
    let start := cursor.next.token
    let (item, behind) ←
      if start.atEnd || (start.line != cursor.line && start.column ≤ column) then
        .ok (.plain [], start)
      else readNode fuel depth column true start
    if behind.atEnd || behind.column < column then .ok ([item], behind)
    else if behind.hasBegun then .error .malformed
    else if behind.column = column ∧ behind.atItem then
      (readItems fuel (depth + 1) column atKey behind).map fun (items, cursor) =>
        (item :: items, cursor)
    else if behind.column = column ∧ atKey then .ok ([item], behind)
    else .error .malformed

/-- The fields of a mapping at a column. -/
def readFields : Nat → (depth column : Nat) → Cursor →
    Except YamlError (List (Node × Node) × Cursor)
  | 0, _, _, _ => .error .malformed
  | _, 0, _, _ => .error .tooDeep
  | fuel + 1, depth + 1, column, cursor => do
    let (key, colon) ← readInline depth column cursor
    if ¬(colon.atColon false && !colon.atEnd && mayBeKey cursor colon) then .error .malformed
    else
      let start := colon.next.token
      let (value, behind) ←
        if start.atEnd then .ok (.plain [], start)
        else if start.line = colon.line then readNode fuel depth column false start
        else if column < start.column then readNode fuel depth column true start
        else if start.column = column ∧ start.atItem then
          (readItems fuel depth column true start).map fun (items, cursor) =>
            (.list items, cursor)
        else .ok (.plain [], start)
      if behind.atEnd || behind.column < column then .ok ([(key, value)], behind)
      else if behind.column = column ∧ ¬behind.hasBegun then
        (readFields fuel (depth + 1) column behind).map fun (fields, cursor) =>
          ((key, value) :: fields, cursor)
      else .error .malformed

end

/-- The place behind the lines of directives, which only stand in front of a document's first
marker. -/
def skipDirectives : Nat → Cursor → Except YamlError Cursor
  | 0, cursor => .ok cursor
  | fuel + 1, cursor =>
    if cursor.column == 0 && cursor.rest.head? == some '%' then do
      let line := cursor.rest.takeWhile (!isBreak ·)
      let behind ← skipDirectives fuel (cursor.skip line.length).token
      if behind.isMarker '-' || behind.rest.head? == some '%' then .ok behind
      else .error .malformed
    else .ok cursor

/-- The place of the token behind the markers that end a document. -/
def skipEndMarkers : Nat → Cursor → Cursor
  | 0, cursor => cursor
  | fuel + 1, cursor =>
    if cursor.isMarker '.' then skipEndMarkers fuel (cursor.skip 3).token else cursor

/-- The value of a text. -/
def ofChars (s : List Char) : Except YamlError Yaml :=
  if ¬s.all isAllowed then .error .malformed
  else do
    let fuel := 2 * s.length + 2
    let s := match s with
      | '\uFEFF' :: s => s
      | s => s
    let start ← skipDirectives fuel (Cursor.token ⟨s, 0, 0, false⟩)
    let isMarked := start.isMarker '-'
    let first := if isMarked then (start.skip 3).token else start
    let (node, behind) ←
      if first.atEnd then .ok (.plain [], first)
      else readNode fuel maxDepth (-1) (!(isMarked && first.line == start.line)) first
    if (skipEndMarkers fuel behind).rest.isEmpty then node.toYaml else .error .malformed

end ColumnFormula.Yaml
