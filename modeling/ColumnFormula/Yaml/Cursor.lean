/-!
# Places in a settings file

A cursor is a place in a text: what follows it, its line and column, and whether its line has
begun with something else than blanks. Columns carry meaning, since deeper columns belong to
the value in front of them. Between tokens there may be blanks, comments and line breaks, but
no tabs.
-/

namespace ColumnFormula.Yaml

/-- A place in a text. -/
structure Cursor where
  rest : List Char
  line : Nat
  column : Nat
  /-- Whether something else than blanks stands in front of this place in its line. -/
  hasBegun : Bool
  deriving Repr

/-- The characters that end a line. -/
def isBreak (c : Char) : Bool :=
  c == '\n' || c == '\r' || c == '\x85' || c == '\u2028' || c == '\u2029'

/-- Whether a character is a blank within a line. -/
def isBlankOrTab (c : Char) : Bool := c == ' ' || c == '\t'

/-- Whether a token ends in front of what follows: a blank, a line break or the end. -/
def endsToken : List Char → Bool
  | [] => true
  | c :: _ => isBlankOrTab c || isBreak c

namespace Cursor

/-- The place behind one character. -/
def next (cursor : Cursor) : Cursor :=
  match cursor.rest with
  | [] => cursor
  | c :: rest =>
    if isBreak c then ⟨rest, cursor.line + 1, 0, false⟩
    else ⟨rest, cursor.line, cursor.column + 1, cursor.hasBegun || !isBlankOrTab c⟩

/-- The place behind several characters of one line. -/
def skip (cursor : Cursor) (n : Nat) : Cursor :=
  ⟨cursor.rest.drop n, cursor.line, cursor.column + n,
    cursor.hasBegun || (cursor.rest.take n).any (!isBlankOrTab ·)⟩

/-- The place behind blanks, comments and line breaks. -/
def toToken : (inComment hasBegun : Bool) → (line column : Nat) → List Char → Cursor
  | _, hasBegun, line, column, [] => ⟨[], line, column, hasBegun⟩
  | inComment, hasBegun, line, column, c :: s =>
    if isBreak c then toToken false false (line + 1) 0 s
    else if inComment || c == '#' then toToken true true line (column + 1) s
    else if c = ' ' then toToken false hasBegun line (column + 1) s
    else ⟨c :: s, line, column, hasBegun⟩

/-- The place of the next token. -/
def token (cursor : Cursor) : Cursor :=
  toToken false cursor.hasBegun cursor.line cursor.column cursor.rest

/-- Whether three of the same character begin a line and nothing else follows them. -/
def isMarker (c : Char) (cursor : Cursor) : Bool :=
  cursor.column == 0 && [c, c, c].isPrefixOf cursor.rest && endsToken (cursor.rest.drop 3)

/-- Whether the document ends here. -/
def atEnd (cursor : Cursor) : Bool :=
  cursor.rest.isEmpty || cursor.isMarker '-' || cursor.isMarker '.'

/-- Whether an item of a list begins here. -/
def atItem (cursor : Cursor) : Bool :=
  match cursor.rest with
  | '-' :: s => endsToken s
  | _ => false

/-- Whether the colon behind a key stands here. Between brackets any colon is one. -/
def atColon (inFlow : Bool) (cursor : Cursor) : Bool :=
  match cursor.rest with
  | ':' :: s => inFlow || endsToken s
  | _ => false

end Cursor

end ColumnFormula.Yaml
