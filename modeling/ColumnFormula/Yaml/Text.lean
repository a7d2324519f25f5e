import ColumnFormula.Yaml.Cursor
import ColumnFormula.Yaml.Plain

/-!
# Texts in a settings file

Quoted, plain and block texts may run over several lines. A single line break inside of a
quoted or plain text counts as a blank and each empty line as a line break; blanks around a
line break do not count. A block text keeps its lines, or joins them if it is folded.
-/

namespace ColumnFormula.Yaml

/-- What a line break contributes to a text. -/
def breakText (c : Char) : Char :=
  if c = '\u2028' ∨ c = '\u2029' then c else '\n'

/-- The place behind the blanks and tabs that stand here. -/
def Cursor.pastBlanks (cursor : Cursor) : Cursor :=
  cursor.skip (cursor.rest.takeWhile isBlankOrTab).length

/-- The line breaks of empty lines of a quoted text, and the place behind them. -/
def quotedBreaks : Nat → Cursor → Except YamlError (List Char × Cursor)
  | 0, _ => .error .malformed
  | fuel + 1, cursor =>
    if cursor.isMarker '-' || cursor.isMarker '.' then .error .malformed
    else
      let cursor := cursor.pastBlanks
      match cursor.rest with
      | c :: _ =>
        if isBreak c then
          (quotedBreaks fuel cursor.next).map fun (breaks, cursor) =>
            (breakText c :: breaks, cursor)
        else .ok ([], cursor)
      | [] => .ok ([], cursor)

/-- One line break and the empty lines behind it, as text. -/
def foldBreaks (first : Char) (others : List Char) : List Char :=
  if breakText first ≠ '\n' then breakText first :: others
  else if others.isEmpty then [' ']
  else others

/-- Blanks or line breaks inside of a quoted text. -/
def quotedSpacing (fuel : Nat) (cursor : Cursor) : Except YamlError (List Char × Cursor) :=
  let blanks := cursor.rest.takeWhile isBlankOrTab
  let cursor := cursor.pastBlanks
  match cursor.rest with
  | [] => .error .malformed
  | c :: _ =>
    if isBreak c then
      (quotedBreaks fuel cursor.next).map fun (breaks, cursor) => (foldBreaks c breaks, cursor)
    else .ok (blanks, cursor)

/-- The character behind a backslash, if one letter names it. -/
def namedEscape? (c : Char) : Option Char :=
  [('0', '\x00'), ('a', '\x07'), ('b', '\x08'), ('t', '\t'), ('\t', '\t'), ('n', '\n'),
    ('v', '\x0b'), ('f', '\x0c'), ('r', '\r'), ('e', '\x1b'), (' ', ' '), ('"', '"'),
    ('\\', '\\'), ('/', '/'), ('N', '\x85'), ('_', '\xa0'), ('L', '\u2028'),
    ('P', '\u2029')].lookup c

/-- How many hexadecimal digits follow an escape. -/
def codeLength? (c : Char) : Option Nat :=
  [('x', 2), ('u', 4), ('U', 8)].lookup c

/-- The character of a code; half of a pair of units is unknown. -/
def codeChar (code : Nat) : Except YamlError Char :=
  if 0x10FFFF < code then .error .badValue
  else if 0xD800 ≤ code ∧ code ≤ 0xDFFF then .ok '\uFFFD'
  else .ok (Char.ofNat code)

/-- An escape of a text in double quotes, from behind its backslash. -/
def readEscape (fuel : Nat) (cursor : Cursor) : Except YamlError (List Char × Cursor) :=
  match cursor.rest with
  | [] => .error .malformed
  | c :: s =>
    match namedEscape? c, codeLength? c with
    | some d, _ => .ok ([d], cursor.next)
    | none, some length =>
      let digits := s.take length
      if digits.length = length ∧ digits.all (fun d => (digitOfBase? 16 d).isSome) then
        (codeChar ((numeralValue? 16 digits).getD 0)).map fun d => ([d], cursor.skip (length + 1))
      else .error .malformed
    | none, none => if isBreak c then quotedBreaks fuel cursor.next else .error .malformed

/-- The rest of a quoted text up to its closing quote. -/
def readQuoted (quote : Char) : Nat → Cursor → Except YamlError (List Char × Cursor)
  | 0, _ => .error .malformed
  | fuel + 1, cursor =>
    match cursor.rest with
    | [] => .error .malformed
    | c :: s =>
      if isBlankOrTab c || isBreak c then do
        let (text, cursor) ← quotedSpacing fuel cursor
        let (more, cursor) ← readQuoted quote fuel cursor
        .ok (text ++ more, cursor)
      else if c = quote then
        if quote = '\'' ∧ s.head? = some '\'' then
          (readQuoted quote fuel (cursor.skip 2)).map fun (text, cursor) => ('\'' :: text, cursor)
        else .ok ([], cursor.next)
      else if c = '\\' ∧ quote = '"' then do
        let (text, cursor) ← readEscape fuel cursor.next
        let (more, cursor) ← readQuoted quote fuel cursor
        .ok (text ++ more, cursor)
      else (readQuoted quote fuel cursor.next).map fun (text, cursor) => (c :: text, cursor)

/-- The characters of a plain text up to a blank, a line break or a sign that ends it. -/
def plainChunk (inFlow : Bool) : List Char → List Char
  | [] => []
  | c :: s =>
    let endsAtColon :=
      c == ':' &&
        (endsToken s || (inFlow && s.head?.any ([',', '[', ']', '\x7b', '\x7d'].contains ·)))
    let endsInFlow := inFlow && [',', '?', '[', ']', '\x7b', '\x7d'].contains c
    if isBlankOrTab c || isBreak c || endsAtColon || endsInFlow then []
    else c :: plainChunk inFlow s

/-- The line breaks of empty lines behind a line of plain text, and the place behind them;
none at the end of the document. -/
def plainBreaks : Nat → Cursor → Option (List Char × Cursor)
  | 0, _ => none
  | fuel + 1, cursor =>
    if cursor.isMarker '-' || cursor.isMarker '.' then none
    else
      let cursor := cursor.skip (cursor.rest.takeWhile (· == ' ')).length
      match cursor.rest with
      | c :: _ =>
        if isBreak c then
          (plainBreaks fuel cursor.next).map fun (breaks, cursor) => (breakText c :: breaks, cursor)
        else some ([], cursor)
      | [] => some ([], cursor)

/-- Blanks or line breaks behind a chunk of plain text, as text; nothing if there are none or
the document ends behind them. -/
def plainSpacing (fuel : Nat) (cursor : Cursor) : List Char × Cursor :=
  let blanks := cursor.rest.takeWhile (· == ' ')
  let cursor := cursor.skip blanks.length
  match cursor.rest with
  | c :: _ =>
    if isBreak c then
      match plainBreaks fuel cursor.next with
      | some (breaks, cursor) => (foldBreaks c breaks, cursor)
      | none => ([], cursor.next)
    else (blanks, cursor)
  | [] => (blanks, cursor)

/-- A plain text. Its further lines begin at `minColumn` or to the right of it. -/
def readPlain (inFlow : Bool) (minColumn : Nat) : Nat → Cursor → List Char × Cursor
  | 0, cursor => ([], cursor)
  | fuel + 1, cursor =>
    let chunk := if cursor.rest.head? = some '#' then [] else plainChunk inFlow cursor.rest
    if chunk.isEmpty then ([], cursor)
    else
      let (spacing, behind) := plainSpacing fuel (cursor.skip chunk.length)
      if spacing.isEmpty || behind.rest.head? = some '#' ||
          (!inFlow && behind.column < minColumn) then
        (chunk, behind)
      else
        match readPlain inFlow minColumn fuel behind with
        | ([], cursor) => (chunk, cursor)
        | (more, cursor) => (chunk ++ spacing ++ more, cursor)

/-- The characters that have a meaning of their own and begin no plain text. -/
def indicators : List Char :=
  [',', '[', ']', '\x7b', '\x7d', '#', '&', '*', '!', '|', '>', '\'', '"', '%', '@', '\x60']

/-- Whether a plain text may begin here. -/
def startsPlain (inFlow : Bool) : List Char → Bool
  | [] => false
  | c :: s =>
    if c == '-' then !endsToken s
    else if c == '?' || c == ':' then !inFlow && !endsToken s
    else
      !isBlankOrTab c && !isBreak c && !indicators.contains c

/-- What is kept of the line breaks at the end of a block text. -/
inductive Chomping where
  | strip | clip | keep
  deriving DecidableEq, Repr

/-- How a block text ends and how deep it is indented, as written behind its sign. -/
def blockHeader : List Char → Except YamlError (Chomping × Option Nat × Nat)
  | c :: d :: _ =>
    let chomping (c : Char) : Option Chomping :=
      if c = '-' then some .strip else if c = '+' then some .keep else none
    let depth (c : Char) : Option Nat := if c.isDigit then some (c.toNat - 48) else none
    match chomping c, depth c with
    | some style, _ => if depth d = some 0 then .error .malformed else
        .ok (style, depth d, if (depth d).isSome then 2 else 1)
    | none, some 0 => .error .malformed
    | none, some n => .ok ((chomping d).getD .clip, some n, if (chomping d).isSome then 2 else 1)
    | none, none => .ok (.clip, none, 0)
  | [c] => .ok (if c = '-' then .strip else if c = '+' then .keep else .clip, none,
      if c = '-' ∨ c = '+' then 1 else 0)
  | [] => .ok (.clip, none, 0)

/-- Empty lines at the start of a block text, the depth of its deepest blank, and the place
behind them. -/
def blockStart : Nat → Nat → Cursor → List Char × Nat × Cursor
  | 0, depth, cursor => ([], depth, cursor)
  | fuel + 1, depth, cursor =>
    let cursor := cursor.skip (cursor.rest.takeWhile (· == ' ')).length
    let depth := max depth cursor.column
    match cursor.rest with
    | c :: _ =>
      if isBreak c then
        let (breaks, depth, cursor) := blockStart fuel depth cursor.next
        (breakText c :: breaks, depth, cursor)
      else ([], depth, cursor)
    | [] => ([], depth, cursor)

/-- Empty lines inside of a block text of this depth, and the place behind them. -/
def blockBreaks (depth : Nat) : Nat → Cursor → List Char × Cursor
  | 0, cursor => ([], cursor)
  | fuel + 1, cursor =>
    let blanks := (cursor.rest.takeWhile (· == ' ')).length
    let cursor := cursor.skip (min blanks (depth - cursor.column))
    match cursor.rest with
    | c :: _ =>
      if isBreak c then
        let (breaks, cursor) := blockBreaks depth fuel cursor.next
        (breakText c :: breaks, cursor)
      else ([], cursor)
    | [] => ([], cursor)

/-- The lines of a block text from here on, with the text that ends it. -/
def blockLines (folded : Bool) (chomping : Chomping) (depth : Nat) :
    Nat → Cursor → List Char × Cursor
  | 0, cursor => ([], cursor)
  | fuel + 1, cursor =>
    let line := cursor.rest.takeWhile (!isBreak ·)
    let startsDeep := line.head?.any isBlankOrTab
    let cursor := cursor.skip line.length
    let lineBreak := (cursor.rest.head?.map breakText).toList
    let (breaks, behind) := blockBreaks depth fuel cursor.next
    if behind.column = depth ∧ ¬behind.rest.isEmpty then
      let (more, last) := blockLines folded chomping depth fuel behind
      let joint :=
        if folded && lineBreak == ['\n'] && !startsDeep && !behind.rest.head?.any isBlankOrTab then
          (if breaks.isEmpty then [' '] else [])
        else lineBreak
      (line ++ joint ++ breaks ++ more, last)
    else
      let ending := match chomping with
        | .strip => []
        | .clip => lineBreak
        | .keep => lineBreak ++ breaks
      (line ++ ending, behind)

/-- A block text from behind its sign, inside of a value at column `indent`. -/
def readBlock (folded : Bool) (indent : Int) (cursor : Cursor) :
    Except YamlError (List Char × Cursor) := do
  let fuel := cursor.rest.length + 1
  let (chomping, depth, width) ← blockHeader cursor.rest
  let cursor := cursor.skip width
  let blanks := (cursor.rest.takeWhile (· == ' ')).length
  let cursor := cursor.skip blanks
  let comment := if cursor.rest.head? = some '#' then cursor.rest.takeWhile (!isBreak ·) else []
  let cursor := cursor.skip comment.length
  if ¬endsToken cursor.rest ∨ cursor.rest.head?.any isBlankOrTab then .error .malformed
  else
    let least := max (indent + 1) 1
    let (breaks, depth, cursor) := match depth with
      | none =>
        let (breaks, deepest, cursor) := blockStart fuel 0 cursor.next
        (breaks, max least.toNat deepest, cursor)
      | some n =>
        let depth := least.toNat + n - 1
        let (breaks, cursor) := blockBreaks depth fuel cursor.next
        (breaks, depth, cursor)
    if cursor.column = depth ∧ ¬cursor.rest.isEmpty then
      let (text, cursor) := blockLines folded chomping depth fuel cursor
      .ok (breaks ++ text, cursor)
    else .ok (if chomping = .keep then breaks else [], cursor)

end ColumnFormula.Yaml
