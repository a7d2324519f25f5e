import Mathlib.Data.List.Forall2
import ColumnFormula.Proofs.Aggregate.Tolerance
import ColumnFormula.Proofs.Boundary.Calls
import ColumnFormula.Proofs.Text.IllFormed

/-!
# Encoded text

Formulas, column names and cells may be handed over as the bytes that encode them, and nothing
comes out differently then. Bytes that encode no text are refused as a formula, and as a cell they
are like one that is absent.
-/

namespace ColumnFormula

open Text

namespace RawText

/-- Whether a host hands over the same as another one, or the bytes that encode its text. -/
inductive IsEncodingOf : RawText → RawText → Prop
  | same (raw : RawText) : IsEncodingOf raw raw
  | encoded (s : String) : IsEncodingOf (.bytes (Utf8.encode s.toList)) (.text s)

variable {raw other : RawText}

theorem IsEncodingOf.chars?_eq (h : other.IsEncodingOf raw) : other.chars? = raw.chars? := by
  cases h with
  | same => rfl
  | encoded s => exact Utf8.decode?_encode s.toList

theorem IsEncodingOf.absent_iff (h : other.IsEncodingOf raw) : other = .absent ↔ raw = .absent := by
  cases h with
  | same => rfl
  | encoded s => exact ⟨nofun, nofun⟩

end RawText

open RawText (IsEncodingOf)

/-! ## Formulas -/

namespace Formula

variable {raw other : RawText}

/-- A formula depends on what it is decoded as, unless there is nothing to decode. -/
theorem ofRaw_of_ne_absent (h : raw ≠ .absent) :
    ofRaw raw = match raw.chars? with
      | none => .error (.invalidEncoding "formula")
      | some s => (ofChars s).mapError .malformed := by
  cases raw with
  | absent => exact absurd rfl h
  | _ => rfl

theorem ofRaw_eq_of_isEncodingOf (h : other.IsEncodingOf raw) : ofRaw other = ofRaw raw := by
  by_cases habsent : raw = .absent
  · rw [habsent, h.absent_iff.mpr habsent]
  · rw [ofRaw_of_ne_absent habsent, ofRaw_of_ne_absent (mt h.absent_iff.mp habsent), h.chars?_eq]

end Formula

/-! ## Cells -/

/-- Whether cells are decoded alike, one by one. -/
abbrev DecodedAlike : List RawText → List RawText → Prop :=
  List.Forall₂ fun other cell => other.chars? = cell.chars?

namespace Cell

variable {cells others : List RawText}

theorem content?_congr {other cell : RawText} (h : other.chars? = cell.chars?) :
    content? other = content? cell := by
  unfold content?
  rw [h]

theorem contents_congr (h : DecodedAlike others cells) : contents others = contents cells := by
  induction h with
  | nil => rfl
  | cons hcell _ ih =>
      simp only [contents, List.filterMap_cons, content?_congr hcell] at ih ⊢
      rw [ih]

theorem numbers_congr (h : DecodedAlike others cells) : numbers others = numbers cells := by
  induction h with
  | nil => rfl
  | cons hcell _ ih =>
      simp only [numbers, List.filterMap_cons, number?, content?_congr hcell] at ih ⊢
      rw [ih]

end Cell

namespace Aggregate

variable {cells others : List RawText}

/-- Cells that are decoded alike are reduced alike. -/
theorem apply_of_decodedAlike (h : DecodedAlike others cells) (aggregate : Aggregate) :
    aggregate.apply others = aggregate.apply cells := by
  by_cases hcount : aggregate = .count
  · rw [hcount, apply_count, apply_count, Cell.contents_congr h]
  · exact apply_congr hcount (Cell.numbers_congr h)

theorem apply_of_isEncodingOf (h : List.Forall₂ IsEncodingOf others cells) (aggregate : Aggregate) :
    aggregate.apply others = aggregate.apply cells :=
  apply_of_decodedAlike (h.imp fun _ _ hcell => hcell.chars?_eq) aggregate

/-- A cell that cannot be decoded is reduced like one that is absent. -/
theorem apply_of_not_isWellFormed {bytes : List UInt8} (h : ¬ Utf8.IsWellFormed bytes)
    (aggregate : Aggregate) (before after : List RawText) :
    aggregate.apply (before ++ .bytes bytes :: after) =
      aggregate.apply (before ++ .absent :: after) := by
  have hsame : ∀ rest : List RawText, DecodedAlike rest rest :=
    fun rest => List.forall₂_same.mpr fun _ _ => rfl
  have hcell : RawText.chars? (.bytes bytes) = RawText.chars? .absent :=
    Utf8.decode?_eq_none_iff.mpr h
  exact apply_of_decodedAlike
    (List.rel_append (hsame before) (.cons hcell (hsame after))) aggregate

end Aggregate

/-! ## Calls -/

namespace Boundary

variable {column otherColumn : RawText} {values others : Option (List RawText)}

theorem parse_eq_of_isEncodingOf {formula other : RawText} (h : other.IsEncodingOf formula)
    (table : HandleTable) : parse table other = parse table formula := by
  rw [parse, parse, Formula.ofRaw_eq_of_isEncodingOf h]

theorem aggregate_none (table : HandleTable) (choice : AggregateChoice) (column : RawText)
    (count : Int) : aggregate table choice column none count = fail table "Null pointer provided" := by
  cases column <;> rfl

theorem aggregate_eq_of_isEncodingOf (hcolumn : otherColumn.IsEncodingOf column)
    (hvalues : Option.Rel (List.Forall₂ IsEncodingOf) others values) (table : HandleTable)
    (choice : AggregateChoice) (count : Int) :
    aggregate table choice otherColumn others count =
      aggregate table choice column values count := by
  cases hvalues with
  | none => rw [aggregate_none, aggregate_none]
  | @some others values hvalues =>
      -- Without a column, the values are not looked at.
      by_cases habsent : column = .absent
      · rw [habsent, hcolumn.absent_iff.mpr habsent]
        rfl
      · have happly : ∀ aggregate : Aggregate, aggregate.apply (others.take count.toNat) =
            aggregate.apply (values.take count.toNat) :=
          Aggregate.apply_of_isEncodingOf (List.forall₂_take count.toNat hvalues)
        rw [aggregate_of_ne_absent table choice habsent,
          aggregate_of_ne_absent table choice (mt hcolumn.absent_iff.mp habsent), hcolumn.chars?_eq]
        simp only [happly]

end Boundary

/-- Bytes are transparent. A formula is parsed from the bytes that encode it as it is from its
text; whichever cells of a column are handed over as bytes, every aggregate comes to the same
value or error; and so do the calls for hosts, with any of their arguments as bytes. Bytes that
encode no text are refused as a formula, and as a cell they count for as much as one that is
absent; among them are all bytes in which a number is carried by more bytes than it takes or is no
character, or a character is left before its last byte. -/
theorem RawText.encoding_transparent :
    (∀ s : String, Formula.ofRaw (.bytes (Utf8.encode s.toList)) = Formula.ofRaw (.text s)) ∧
    (∀ (cells others : List RawText), List.Forall₂ IsEncodingOf others cells →
      ∀ aggregate : Aggregate, aggregate.apply others = aggregate.apply cells) ∧
    (∀ (formula other : RawText), other.IsEncodingOf formula →
      ∀ table, Boundary.parse table other = Boundary.parse table formula) ∧
    (∀ (column otherColumn : RawText) (values others : Option (List RawText)),
      otherColumn.IsEncodingOf column → Option.Rel (List.Forall₂ IsEncodingOf) others values →
      ∀ table choice count, Boundary.aggregate table choice otherColumn others count =
        Boundary.aggregate table choice column values count) ∧
    (∀ bytes, Utf8.HasFault bytes → ¬ Utf8.IsWellFormed bytes) ∧
    ∀ bytes, ¬ Utf8.IsWellFormed bytes →
      Formula.ofRaw (.bytes bytes) = .error (.invalidEncoding "formula") ∧
      ∀ (aggregate : Aggregate) (before after : List RawText),
        aggregate.apply (before ++ .bytes bytes :: after) =
          aggregate.apply (before ++ .absent :: after) := by
  refine ⟨fun s => Formula.ofRaw_eq_of_isEncodingOf (.encoded s),
    fun cells others => Aggregate.apply_of_isEncodingOf,
    fun formula other => Boundary.parse_eq_of_isEncodingOf,
    fun column otherColumn values others => Boundary.aggregate_eq_of_isEncodingOf,
    fun bytes hfault => hfault.not_isWellFormed, ?_⟩
  intro bytes hbytes
  refine ⟨?_, Aggregate.apply_of_not_isWellFormed hbytes⟩
  have hpresent : RawText.bytes bytes ≠ .absent := nofun
  rw [Formula.ofRaw_of_ne_absent hpresent, chars?, Utf8.decode?_eq_none_iff.mpr hbytes]

/-- A slash carried by two bytes, a surrogate, a number beyond all characters and a digit with half
of a character behind it; and a column of which the second cell is handed over as bytes. -/
theorem RawText.encoding_transparent_faults :
    (∀ bytes ∈ ([[0xC0, 0xAF], [0xED, 0xA0, 0x80], [0xF4, 0x90, 0x80, 0x80],
        [0x31, 0xE2, 0x82]] : List (List UInt8)),
      ¬ Utf8.IsWellFormed bytes ∧
        Formula.ofRaw (.bytes bytes) = .error (.invalidEncoding "formula") ∧
        ∀ aggregate : Aggregate, aggregate.apply ([.text "1"] ++ .bytes bytes :: [.text "2"]) =
          aggregate.apply ([.text "1"] ++ .absent :: [.text "2"])) ∧
    List.Forall₂ IsEncodingOf [.text "é", .bytes [0x20, 0x32, 0xC2, 0xA0]]
        [.text "é", .text " 2\u00a0"] ∧
      Aggregate.max.apply [.text "é", .bytes [0x20, 0x32, 0xC2, 0xA0]] =
        Aggregate.max.apply [.text "é", .text " 2\u00a0"] := by
  refine ⟨?_, ?_⟩
  · intro bytes hbytes
    have hnot : ¬ Utf8.IsWellFormed bytes := by
      rw [← Utf8.decode?_eq_none_iff]
      revert bytes
      decide
    exact ⟨hnot, (encoding_transparent.2.2.2.2.2 bytes hnot).1,
      fun aggregate => (encoding_transparent.2.2.2.2.2 bytes hnot).2 aggregate _ _⟩
  · have hcells : List.Forall₂ IsEncodingOf [.text "é", .bytes [0x20, 0x32, 0xC2, 0xA0]]
        [.text "é", .text " 2\u00a0"] := .cons (.same _) (.cons (.encoded " 2\u00a0") .nil)
    exact ⟨hcells, encoding_transparent.2.1 _ _ hcells .max⟩

end ColumnFormula
