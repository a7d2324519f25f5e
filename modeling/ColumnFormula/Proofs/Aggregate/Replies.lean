import ColumnFormula.Proofs.Aggregate.Tolerance
import ColumnFormula.Proofs.Json.Characters

/-!
# Names of aggregates, and what is replied

A name means an aggregate if it spells the name of one, blanks and case aside, so it holds no
character that the name lacks, unless that is blank or has another one as its upper case. What an
aggregate replies for some cells is the text of the result or the message of the error. It is
written in plain characters, and cells that are blank add nothing to it.
-/

namespace ColumnFormula

open Text

/-! ## Texts of numbers -/

theorem Text.isPlain_toString (n : Int) : ∀ c ∈ (toString n).toList, IsPlain c := by
  rw [Decimal.toList_toString]
  exact Json.isPlain_writeInt n

theorem Binary64.isPlain_toText (x : Binary64) : ∀ c ∈ x.toText.toList, IsPlain c := by
  rw [Binary64.toText, String.toList_ofList]
  cases x with
  | nan => exact isPlain_of_all (by decide)
  | infinite negative => cases negative <;> exact isPlain_of_all (by decide)
  | finite negative units h => exact Json.isPlain_writeFloat (.finite negative units h)

namespace Aggregate

variable {name : String} {aggregate : Aggregate} {cells : List RawText}

/-! ## Names -/

/-- Whether a name means an aggregate: it spells its name, case and blanks aside. -/
def IsMeantBy (aggregate : Aggregate) (name : String) : Prop :=
  upper (strip name.toList) = aggregate.name.toList

theorem upper_strip_of_ofName (h : ofName name = .ok aggregate) :
    upper (strip name.toList) = aggregate.name.toList := by
  unfold ofName at h
  split at h
  next found hfound =>
    obtain rfl := Except.ok.inj h
    have hname := List.find?_some hfound
    rw [beq_iff_eq] at hname
    rw [hname, String.toList_ofList]
  · cases h

theorem ofName_eq_ok_iff : ofName name = .ok aggregate ↔ aggregate.IsMeantBy name := by
  constructor
  · exact upper_strip_of_ofName
  · intro hmeant
    rw [ofName, hmeant, String.ofList_toList]
    cases aggregate <;> rfl

theorem IsMeantBy.unique {other : Aggregate} (h : aggregate.IsMeantBy name)
    (hother : other.IsMeantBy name) : aggregate = other :=
  Except.ok.inj ((ofName_eq_ok_iff.mpr h).symm.trans (ofName_eq_ok_iff.mpr hother))

theorem ofName_name (aggregate : Aggregate) : ofName aggregate.name = .ok aggregate := by
  cases aggregate <;> decide

theorem isPlain_name (aggregate : Aggregate) : ∀ c ∈ aggregate.name.toList, IsPlain c := by
  cases aggregate <;> exact isPlain_of_all (by decide)

/-- A character that stands for itself in upper case is in no name that means an aggregate if it
is not in the name of the aggregate. -/
theorem not_mem_of_ofName (h : ofName name = .ok aggregate) {c : Char} (hblank : isBlank c = false)
    (hupper : c ∈ upperChar c) (hname : c ∉ aggregate.name.toList) : c ∉ name.toList := by
  intro hmem
  apply hname
  rw [← upper_strip_of_ofName h]
  exact List.mem_flatMap.mpr ⟨c, (mem_trimBy_iff hblank).mpr hmem, hupper⟩

/-! ## Errors -/

theorem eq_of_ofName_eq_error {error : FormulaError} (h : ofName name = .error error) :
    error = .unknownFunction name none := by
  unfold ofName at h
  split at h
  · cases h
  · exact (Except.error.inj h).symm

theorem ofName_eq_error_iff {error : FormulaError} : ofName name = .error error ↔
    (∀ aggregate : Aggregate, ¬ aggregate.IsMeantBy name) ∧ error = .unknownFunction name none := by
  constructor
  · intro h
    refine ⟨fun aggregate hmeant => ?_, eq_of_ofName_eq_error h⟩
    rw [ofName_eq_ok_iff.mpr hmeant] at h
    cases h
  · rintro ⟨hnone, rfl⟩
    cases h : ofName name with
    | ok aggregate => exact absurd (ofName_eq_ok_iff.mp h) (hnone aggregate)
    | error other => rw [eq_of_ofName_eq_error h]

theorem eq_of_apply_eq_error {error : FormulaError} (h : aggregate.apply cells = .error error) :
    error = .noNumericValues aggregate.name := by
  unfold apply at h
  split at h
  · cases h
  · cases h
  · exact (Except.error.inj h).symm

/-! ## Blank cells -/

/-- A blank cell at the end makes no difference. -/
theorem apply_append_blank (aggregate : Aggregate) (cells : List RawText) {s : String}
    (hs : strip s.toList = []) : aggregate.apply (cells ++ [.text s]) = aggregate.apply cells := by
  have hempty : Cell.IsEmpty (.text s) := .blank rfl (trimBy_eq_nil_iff.mp hs)
  rw [aggregate.apply_insert_empty cells [] hempty, List.append_nil]

/-! ## Texts of results -/

theorem isPlain_display {integerResults : Bool} {x : Binary64} {text : String}
    (h : aggregate.display integerResults x = .ok text) : ∀ c ∈ text.toList, IsPlain c := by
  unfold display at h
  split at h
  · cases h
  · cases h
  · obtain rfl := Except.ok.inj h
    exact isPlain_toString _
  · split at h
    · obtain rfl := Except.ok.inj h
      exact isPlain_toString _
    · obtain rfl := Except.ok.inj h
      exact Binary64.isPlain_toText _
  · obtain rfl := Except.ok.inj h
    exact Binary64.isPlain_toText _

end Aggregate

/-! ## Replies -/

/-- What is replied for some cells: the text of a result or the message of an error. A result
that has no text is not replied. -/
inductive Reply where
  | result (text : String)
  | failure (message : String)
  | silent (cause : Aggregate.DisplayError)
  deriving DecidableEq, Repr

namespace Aggregate

def reply (aggregate : Aggregate) (cells : List RawText) : Reply :=
  match aggregate.apply cells with
  | .error error => .failure error.message
  | .ok value =>
    match aggregate.display true value with
    | .ok text => .result text
    | .error cause => .silent cause

variable {aggregate : Aggregate} {cells : List RawText}

theorem reply_append_blank (aggregate : Aggregate) (cells : List RawText) {s : String}
    (hs : strip s.toList = []) : aggregate.reply (cells ++ [.text s]) = aggregate.reply cells := by
  rw [reply, apply_append_blank aggregate cells hs, reply]

theorem isPlain_result {text : String} (h : aggregate.reply cells = .result text) :
    ∀ c ∈ text.toList, IsPlain c := by
  unfold reply at h
  split at h
  · cases h
  split at h
  next htext =>
    obtain rfl := Reply.result.inj h
    exact isPlain_display htext
  · cases h

theorem isPlain_failure {message : String} (h : aggregate.reply cells = .failure message) :
    ∀ c ∈ message.toList, IsPlain c := by
  unfold reply at h
  split at h
  next error herror =>
    obtain rfl := Reply.failure.inj h
    rw [eq_of_apply_eq_error herror]
    change ∀ c ∈ (aggregate.name ++ ": no numeric values found in column").toList, IsPlain c
    rw [String.toList_append, List.forall_mem_append]
    exact ⟨isPlain_name aggregate, isPlain_of_all (by decide)⟩
  · split at h <;> cases h

end Aggregate

end ColumnFormula
