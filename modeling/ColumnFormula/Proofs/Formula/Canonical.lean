import ColumnFormula.Proofs.Aggregate.Replies
import ColumnFormula.Proofs.Formula.Grammar
import ColumnFormula.Proofs.Text.UpperCase

/-!
# The rendering of a formula

A formula that was parsed has its parts in a form that parsing leaves alone: its name is in upper
case and holds no opening parenthesis, and neither part has blanks around it. So it is parsed
again from its rendering, which therefore tells two formulas apart whenever they differ. Nor does
it matter for the aggregate that is meant whether the name is taken as written or as parsed.
-/

namespace ColumnFormula.Formula

open Text

/-- Whether the parts of a formula are in the form in which parsing leaves them. -/
structure IsCanonical (formula : Formula) : Prop where
  open_not_mem : '(' ∉ formula.name.toList
  isTrimmed_name : IsTrimmed formula.name.toList
  upper_name : upper formula.name.toList = formula.name.toList
  isTrimmed_argument : IsTrimmed formula.argument.toList

theorem Layout.isCanonical_formula (layout : Layout) : layout.formula.IsCanonical where
  open_not_mem hmem := layout.open_not_mem (open_mem_of_mem_upper (by simpa [formula] using hmem))
  isTrimmed_name := by simpa [formula] using layout.isTrimmed_function.isTrimmed_upper
  upper_name := by simp [formula]
  isTrimmed_argument := by simpa [formula] using layout.isTrimmed_argument

theorem toList_render (formula : Formula) :
    formula.render.toList = callChars formula.name.toList formula.argument.toList := by
  simp [render, callChars]

/-- A canonical formula is parsed from its rendering. -/
theorem IsCanonical.parse_render {formula : Formula} (h : formula.IsCanonical) :
    parse formula.render = .ok formula := by
  have hstrip : strip formula.render.toList =
      callChars formula.name.toList formula.argument.toList := by
    rw [toList_render, (isTrimmed_callChars _ _).strip_eq]
  rw [parse, ofChars_of_strip hstrip, ofBody_call h.open_not_mem, h.isTrimmed_name.strip_eq,
    h.upper_name, h.isTrimmed_argument.strip_eq, String.ofList_toList, String.ofList_toList]

theorem IsCanonical.eq_of_render_eq {formula other : Formula} (h : formula.IsCanonical)
    (hother : other.IsCanonical) (heq : formula.render = other.render) : formula = other := by
  have hparse := h.parse_render
  rw [heq, hother.parse_render] at hparse
  exact (Except.ok.inj hparse).symm

/-- Aggregates are told by their names in upper case, without the blanks around them. -/
theorem toOption_ofName_congr {name other : String}
    (h : upper (strip name.toList) = upper (strip other.toList)) :
    (Aggregate.ofName name).toOption = (Aggregate.ofName other).toOption := by
  rw [Aggregate.ofName, Aggregate.ofName, h]
  cases Aggregate.ofExactName? (String.ofList (upper (strip other.toList))) <;> rfl

/-- What is written in front of the first opening parenthesis. -/
theorem takeWhile_callChars {before : List Char} (h : '(' ∉ before) (inner : List Char) :
    (callChars before inner).tail.takeWhile (· ≠ '(') = before := by
  rw [callChars, List.tail_cons, List.takeWhile_append_of_pos, List.takeWhile_cons_of_neg (by simp),
    List.append_nil]
  intro c hc
  have hne : c ≠ '(' := fun heq => h (heq ▸ hc)
  simpa using hne

/-- Parsing is settled on renderings. The rendering of what a text is parsed into is parsed into
the same, so what two texts are parsed into is the same exactly if the renderings are; and the
name as parsed means the same aggregate, if any, as what is written between the equals sign and
the first opening parenthesis. -/
theorem parse_render_of_parse {s : String} {formula : Formula} (h : parse s = .ok formula) :
    parse formula.render = .ok formula ∧
    (∀ t other, parse t = .ok other → (formula = other ↔ formula.render = other.render)) ∧
    let written := String.ofList ((strip s.toList).tail.takeWhile (· ≠ '('))
    (Aggregate.ofName formula.name).toOption = (Aggregate.ofName written).toOption := by
  obtain ⟨layout, hchars, rfl⟩ := ofChars_eq_ok_iff.mp h
  have hcanonical := layout.isCanonical_formula
  refine ⟨hcanonical.parse_render, ?_, ?_⟩
  · intro t other hother
    obtain ⟨otherLayout, -, rfl⟩ := ofChars_eq_ok_iff.mp hother
    exact ⟨fun heq => by rw [heq], hcanonical.eq_of_render_eq otherLayout.isCanonical_formula⟩
  · apply toOption_ofName_congr
    rw [hcanonical.isTrimmed_name.strip_eq, hcanonical.upper_name, String.toList_ofList, ← hchars,
      layout.strip_chars, takeWhile_callChars layout.open_not_mem_before, layout.strip_before]
    exact String.toList_ofList

/-- A name whose upper case is longer and means no aggregate, with parentheses in the argument, and
one with a long s that means one. -/
theorem parse_render_of_parse_sharp :
    (parse " = ß (x(y) ) " = .ok ⟨"SS", "x(y)"⟩ ∧ parse "=SS(x(y))" = .ok ⟨"SS", "x(y)"⟩ ∧
      (Aggregate.ofName "SS").toOption = (Aggregate.ofName " ß ").toOption) ∧
    parse "=\u017fum (x)" = .ok ⟨"SUM", "x"⟩ ∧ parse "=SUM(x)" = .ok ⟨"SUM", "x"⟩ ∧
      (Aggregate.ofName "SUM").toOption = some .sum ∧
      (Aggregate.ofName "\u017fum ").toOption = some .sum := by
  have hsharp : parse " = ß (x(y) ) " = .ok ⟨"SS", "x(y)"⟩ := by decide +kernel
  have hlong : parse "=\u017fum (x)" = .ok ⟨"SUM", "x"⟩ := by decide +kernel
  have hsum : (Aggregate.ofName "SUM").toOption = some .sum := by decide
  obtain ⟨hsharpRender, -, hsharpName⟩ := parse_render_of_parse hsharp
  obtain ⟨hlongRender, -, hlongName⟩ := parse_render_of_parse hlong
  exact ⟨⟨hsharp, hsharpRender, hsharpName⟩, hlong, hlongRender, hsum, hlongName.symm.trans hsum⟩

end ColumnFormula.Formula
