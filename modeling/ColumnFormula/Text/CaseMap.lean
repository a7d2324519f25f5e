import ColumnFormula.Text.CaseTable

/-!
# Upper case and case folding

Both maps work character by character and may lengthen a text. Upper case normalises
function names; folded texts compare column names without regard to case.
-/

namespace ColumnFormula.Text

/-- The image of a code point in ascending spans, itself if no span holds it. -/
def shiftIn : List CaseSpan → Nat → Nat
  | [], n => n
  | span :: spans, n =>
    if n < span.first then n
    else if n ≤ span.last && (n - span.first) % span.stride == 0 then (n + span.offset).toNat
    else shiftIn spans n

/-- The image of a character under spans and expansions. -/
def mapCase (spans : List CaseSpan) (expansions : List (Nat × List Nat)) (c : Char) :
    List Char :=
  match expansions.lookup c.toNat with
  | some image => image.map Char.ofNat
  | none => [Char.ofNat (shiftIn spans c.toNat)]

def upperChar (c : Char) : List Char :=
  mapCase upperSpans upperExpansions c

def foldChar (c : Char) : List Char :=
  mapCase foldSpans foldExpansions c

def upper (s : List Char) : List Char :=
  s.flatMap upperChar

def foldCase (s : List Char) : List Char :=
  s.flatMap foldChar

@[simp] theorem upper_nil : upper [] = [] := rfl

@[simp] theorem foldCase_nil : foldCase [] = [] := rfl

@[simp] theorem upper_cons (c : Char) (s : List Char) : upper (c :: s) = upperChar c ++ upper s :=
  rfl

@[simp] theorem foldCase_cons (c : Char) (s : List Char) :
    foldCase (c :: s) = foldChar c ++ foldCase s :=
  rfl

theorem upper_append (s t : List Char) : upper (s ++ t) = upper s ++ upper t :=
  List.flatMap_append

end ColumnFormula.Text
