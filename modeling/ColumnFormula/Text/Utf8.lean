/-!
# UTF-8

A decoder that goes byte by byte and reports, in order, every character and every
ill-formed piece. A piece is as long as some character begins with it, so `F0 9F 41` is one
ill-formed piece of two bytes and a letter. Strict decoding accepts texts without such
pieces; lossy decoding puts a replacement character in place of each.
-/

namespace ColumnFormula.Text.Utf8

/-- Where the decoder stands between two bytes. -/
inductive State where
  | start
  /-- Inside a character with `owed` bytes to come, the next from `low` to `high`; `value`
  holds the bits read so far. -/
  | within (owed : Nat) (low high : UInt8) (value : Nat)
  deriving DecidableEq, Repr

/-- The state after the first byte of a character, with what that byte completes. -/
def lead (b : UInt8) : List (Option Char) × State :=
  if b < 0x80 then ([some (Char.ofNat b.toNat)], .start)
  else if 0xC2 ≤ b ∧ b ≤ 0xDF then ([], .within 1 0x80 0xBF (b.toNat - 0xC0))
  -- Bounds for the second byte keep out longer encodings than needed and surrogates.
  else if b = 0xE0 then ([], .within 2 0xA0 0xBF 0)
  else if b = 0xED then ([], .within 2 0x80 0x9F 0xD)
  else if 0xE1 ≤ b ∧ b ≤ 0xEF then ([], .within 2 0x80 0xBF (b.toNat - 0xE0))
  else if b = 0xF0 then ([], .within 3 0x90 0xBF 0)
  else if 0xF1 ≤ b ∧ b ≤ 0xF3 then ([], .within 3 0x80 0xBF (b.toNat - 0xF0))
  else if b = 0xF4 then ([], .within 3 0x80 0x8F 4)
  else ([none], .start)

/-- One byte: what it completes, and the state after it. -/
def step : State → UInt8 → List (Option Char) × State
  | .start, b => lead b
  | .within owed low high value, b =>
    if low ≤ b ∧ b ≤ high then
      let value := value * 64 + (b.toNat - 0x80)
      if owed ≤ 1 then ([some (Char.ofNat value)], .start)
      else ([], .within (owed - 1) 0x80 0xBF value)
    -- The byte closes an ill-formed piece and is read anew.
    else (none :: (lead b).1, (lead b).2)

/-- The characters and, as `none`, the ill-formed pieces of some bytes. -/
def pieces : State → List UInt8 → List (Option Char)
  | .start, [] => []
  | .within _ _ _ _, [] => [none]
  | state, b :: bytes => (step state b).1 ++ pieces (step state b).2 bytes

/-- The text that some bytes encode, if they are well-formed. -/
def decode? (bytes : List UInt8) : Option (List Char) :=
  (pieces .start bytes).mapM id

/-- The text of some bytes, with U+FFFD for every ill-formed piece. -/
def decodeLossy (bytes : List UInt8) : List Char :=
  (pieces .start bytes).map (·.getD '\uFFFD')

def encode (s : List Char) : List UInt8 :=
  s.flatMap String.utf8EncodeChar

/-- The text without a byte order mark at its start. -/
def dropByteOrderMark : List Char → List Char
  | '\uFEFF' :: s => s
  | s => s

@[simp] theorem encode_nil : encode [] = [] := rfl

@[simp] theorem encode_cons (c : Char) (s : List Char) :
    encode (c :: s) = String.utf8EncodeChar c ++ encode s :=
  rfl

theorem encode_append (s t : List Char) : encode (s ++ t) = encode s ++ encode t :=
  List.flatMap_append

end ColumnFormula.Text.Utf8
