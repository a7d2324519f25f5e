import ColumnFormula.Number.Shortest

/-!
# The text of a number

A finite value is written with its shortest digits: positionally while its first digit
stands between the fourth place behind the point and the sixteenth in front of it, and with
an exponent of a sign and at least two digits otherwise. Positional texts always hold a
point.
-/

namespace ColumnFormula.Binary64

def zeros (n : Nat) : List Char :=
  List.replicate n '0'

/-- Digits with a point `place` digits from their left, which may lie outside of them. -/
def positional (digits : List Char) (place : Int) : List Char :=
  if place ≤ 0 then '0' :: '.' :: zeros (-place).toNat ++ digits
  else if digits.length ≤ place then digits ++ zeros (place.toNat - digits.length) ++ ['.', '0']
  else digits.take place.toNat ++ '.' :: digits.drop place.toNat

/-- An exponent with its sign and at least two digits. -/
def exponentText (exponent : Int) : List Char :=
  let digits := Nat.toDigits 10 exponent.natAbs
  (if exponent < 0 then '-' else '+') :: zeros (2 - digits.length) ++ digits

/-- Digits with a point after the first of them, and an exponent. -/
def scientific (digits : List Char) (exponent : Int) : List Char :=
  match digits with
  | [digit] => digit :: 'e' :: exponentText exponent
  | digit :: rest => digit :: '.' :: rest ++ 'e' :: exponentText exponent
  | [] => []

/-- The text of the decimal `digits · 10 ^ exponent`, without zeros that say nothing. -/
def decimalText (digits : Nat) (exponent : Int) : List Char :=
  let all := Nat.toDigits 10 digits
  let kept := (all.reverse.dropWhile (· == '0')).reverse
  let place := all.length + exponent
  if -4 < place ∧ place ≤ 16 then positional kept place else scientific kept (place - 1)

/-- The text of a finite magnitude. -/
def magnitudeText (units : Nat) : List Char :=
  if units = 0 then ['0', '.', '0']
  else decimalText (shortest units).1 (shortest units).2

def toChars : Binary64 → List Char
  | .nan => ['n', 'a', 'n']
  | .infinite negative => (if negative then ['-'] else []) ++ ['i', 'n', 'f']
  | .finite negative units _ => (if negative then ['-'] else []) ++ magnitudeText units

/-- The text of a value. -/
def toText (x : Binary64) : String :=
  String.ofList x.toChars

end ColumnFormula.Binary64
