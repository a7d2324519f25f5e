import ColumnFormula.Formula
import ColumnFormula.Proofs.Text.Trim

/-!
# The grammar of formulas

A formula is written in one way up to blanks: an equals sign, a function name without an opening
parenthesis, an opening parenthesis, an argument and a closing parenthesis, with blanks anywhere
between them. Exactly the texts of this form are parsed, into the name in upper case and the
argument; every other text is refused for the first part of the form that it lacks.
-/

namespace ColumnFormula.Formula

open Text

/-! ## Written formulas -/

/-- A text of blanks only. -/
abbrev Blanks : Type := { s : List Char // ∀ c ∈ s, isBlank c = true }

/-- A formula as it is written: its two parts, and the blanks in the six places where they may
stand. -/
structure Layout where
  leading : Blanks
  beforeFunction : Blanks
  function : List Char
  afterFunction : Blanks
  beforeArgument : Blanks
  argument : List Char
  afterArgument : Blanks
  trailing : Blanks
  open_not_mem : '(' ∉ function
  isTrimmed_function : IsTrimmed function
  isTrimmed_argument : IsTrimmed argument

/-- An equals sign and a call behind it, with what stands before and between the parentheses. -/
def callChars (before inner : List Char) : List Char :=
  '=' :: (before ++ '(' :: (inner ++ [')']))

namespace Layout

/-- The function name with the blanks around it. -/
def before (layout : Layout) : List Char :=
  layout.beforeFunction ++ layout.function ++ layout.afterFunction

/-- The argument with the blanks around it. -/
def inner (layout : Layout) : List Char :=
  layout.beforeArgument ++ layout.argument ++ layout.afterArgument

/-- The whole text. -/
def chars (layout : Layout) : List Char :=
  layout.leading ++ callChars layout.before layout.inner ++ layout.trailing

/-- The formula that is meant. -/
def formula (layout : Layout) : Formula where
  name := String.ofList (upper layout.function)
  argument := String.ofList layout.argument

end Layout

/-! ## Cutting a text in two -/

theorem cutAt_eq_none_iff {sep : Char} {s : List Char} : cutAt sep s = none ↔ sep ∉ s := by
  induction s with
  | nil => simp [cutAt]
  | cons c s ih =>
      unfold cutAt
      split
      next heq => simp [heq]
      next hne => simp [ih, Ne.symm hne]

theorem cutAt_append {sep : Char} {before : List Char} (h : sep ∉ before) (after : List Char) :
    cutAt sep (before ++ sep :: after) = some (before, after) := by
  induction before with
  | nil => simp [cutAt]
  | cons c before ih =>
      rw [List.mem_cons, not_or] at h
      obtain ⟨hne, hrest⟩ := h
      rw [List.cons_append, cutAt, if_neg (Ne.symm hne), ih hrest]
      rfl

theorem eq_append_of_cutAt {sep : Char} {s before after : List Char}
    (h : cutAt sep s = some (before, after)) : s = before ++ sep :: after ∧ sep ∉ before := by
  induction s generalizing before with
  | nil => simp [cutAt] at h
  | cons c s ih =>
      unfold cutAt at h
      split at h
      next heq =>
        obtain ⟨rfl, rfl⟩ := Prod.mk.inj (Option.some.inj h)
        simp [heq]
      next hne =>
        obtain ⟨⟨front, back⟩, hcut, hparts⟩ := Option.map_eq_some_iff.mp h
        obtain ⟨rfl, rfl⟩ := Prod.mk.inj hparts
        obtain ⟨hs, hmem⟩ := ih hcut
        simp [hs, hmem, Ne.symm hne]

/-- Characters that are dropped in front of a text are missing in front of the cut only. -/
theorem cutAt_dropWhile {p : Char → Bool} {sep : Char} (hsep : p sep = false) (s : List Char) :
    cutAt sep (s.dropWhile p) =
      (cutAt sep s).map fun (before, after) => (before.dropWhile p, after) := by
  induction s with
  | nil => rfl
  | cons c s ih =>
      cases hc : p c with
      | true =>
          have hne : c ≠ sep := by
            rintro rfl
            simp [hsep] at hc
          rw [List.dropWhile_cons_of_pos hc, ih, cutAt, if_neg hne, Option.map_map]
          congr 1
          funext ⟨before, after⟩
          simp [hc]
      | false =>
          have hnone : ¬ p c = true := by simp [hc]
          rw [List.dropWhile_cons_of_neg hnone, cutAt]
          split
          next => rfl
          next =>
            rw [Option.map_map]
            congr 1
            funext ⟨before, after⟩
            simp [hc]

/-- A text is cut in two at a character in one way. -/
theorem append_cons_inj {sep : Char} {before before' after after' : List Char}
    (h : sep ∉ before) (h' : sep ∉ before')
    (heq : before ++ sep :: after = before' ++ sep :: after') :
    before = before' ∧ after = after' := by
  have hcut := cutAt_append h after
  rw [heq, cutAt_append h' after'] at hcut
  obtain ⟨hbefore, hafter⟩ := Prod.mk.inj (Option.some.inj hcut)
  exact ⟨hbefore.symm, hafter.symm⟩

theorem callChars_inj {before before' inner inner' : List Char} (h : '(' ∉ before)
    (h' : '(' ∉ before') (heq : callChars before inner = callChars before' inner') :
    before = before' ∧ inner = inner' := by
  obtain ⟨hbefore, hinner⟩ := append_cons_inj h h' (List.cons.inj heq).2
  exact ⟨hbefore, List.append_cancel_right hinner⟩

/-! ## The call behind the equals sign -/

/-- Blanks in front of a call make no difference. -/
theorem ofBody_dropWhile (length : Nat) (s : List Char) :
    ofBody length (s.dropWhile isBlank) = ofBody length s := by
  unfold ofBody
  rw [cutAt_dropWhile (by decide)]
  cases cutAt '(' s with
  | none => rfl
  | some parts =>
      dsimp only [Option.map_some]
      have hname : strip (parts.1.dropWhile isBlank) = strip parts.1 := trimBy_dropWhile _
      rw [hname]

/-- A call of which the closing parenthesis is the end. -/
theorem ofBody_call {before : List Char} (h : '(' ∉ before) (inner : List Char) (length : Nat) :
    ofBody length (before ++ '(' :: (inner ++ [')'])) =
      .ok ⟨String.ofList (upper (strip before)), String.ofList (strip inner)⟩ := by
  unfold ofBody
  rw [cutAt_append h]
  simp

theorem ofBody_of_not_mem {body : List Char} (h : '(' ∉ body) (length : Nat) :
    ofBody length body = .error .missingOpenParen := by
  rw [ofBody, cutAt_eq_none_iff.mpr h]

/-- A body with an opening parenthesis is a call if it ends with a closing one. -/
theorem ofBody_of_mem {body : List Char} (hopen : '(' ∈ body) (length : Nat) :
    (body.getLast? ≠ some ')' ∧ ofBody length body = .error (.missingCloseParen (some length))) ∨
      ∃ before inner, '(' ∉ before ∧ body = before ++ '(' :: (inner ++ [')']) := by
  cases hcut : cutAt '(' body with
  | none => exact absurd hopen (cutAt_eq_none_iff.mp hcut)
  | some parts =>
      obtain ⟨before, after⟩ := parts
      obtain ⟨rfl, hbefore⟩ := eq_append_of_cutAt hcut
      have hlast : (before ++ '(' :: after).getLast? = some ')' ↔ after.getLast? = some ')' := by
        cases after <;> simp [List.getLast?_cons]
      by_cases hclose : after.getLast? = some ')'
      · obtain ⟨inner, rfl⟩ := List.getLast?_eq_some_iff.mp hclose
        exact .inr ⟨before, inner, hbefore, rfl⟩
      · refine .inl ⟨fun h => hclose (hlast.mp h), ?_⟩
        rw [ofBody, hcut]
        exact if_neg hclose

/-- Behind the equals sign of a trimmed text, only the blanks in front can be trimmed. -/
theorem ofChars_of_strip {s rest : List Char} (h : strip s = '=' :: rest) :
    ofChars s = ofBody (rest.length + 1) rest := by
  have hlast : ∀ c, rest.getLast? = some c → isBlank c = false := by
    intro c hc
    apply (isTrimmed_strip s).2 c
    rw [h, List.getLast?_cons, hc]
    rfl
  have hrest : strip rest = rest.dropWhile isBlank := trimBy_eq_dropWhile hlast
  unfold ofChars
  rw [h]
  change ofBody (rest.length + 1) (strip rest) = _
  rw [hrest, ofBody_dropWhile]

/-- A text is refused for the first part that it lacks, or it is a call. -/
theorem ofChars_cases (s : List Char) :
    ((strip s).head? ≠ some '=' ∧ ofChars s = .error .missingLeadingEquals) ∨
    ((strip s).head? = some '=' ∧ '(' ∉ (strip s).tail ∧ ofChars s = .error .missingOpenParen) ∨
    ((strip s).head? = some '=' ∧ '(' ∈ (strip s).tail ∧ (strip s).getLast? ≠ some ')' ∧
      ofChars s = .error (.missingCloseParen (some (strip s).length))) ∨
    ∃ before inner, '(' ∉ before ∧ strip s = callChars before inner ∧
      ofChars s = .ok ⟨String.ofList (upper (strip before)), String.ofList (strip inner)⟩ := by
  by_cases hequals : (strip s).head? = some '='
  · obtain ⟨body, hs⟩ := List.head?_eq_some_iff.mp hequals
    have hparse := ofChars_of_strip hs
    by_cases hopen : '(' ∈ body
    · rcases ofBody_of_mem hopen (body.length + 1) with
        ⟨hlast, herror⟩ | ⟨before, inner, hbefore, rfl⟩
      · refine .inr (.inr (.inl ⟨hequals, by rwa [hs], ?_, by rw [hparse, herror, hs]; rfl⟩))
        cases body with
        | nil => simp at hopen
        | cons c body => rwa [hs, List.getLast?_cons_cons]
      · exact .inr (.inr (.inr ⟨before, inner, hbefore, hs, by rw [hparse, ofBody_call hbefore]⟩))
    · exact .inr (.inl ⟨hequals, by rwa [hs], by rw [hparse, ofBody_of_not_mem hopen]⟩)
  · refine .inl ⟨hequals, ?_⟩
    unfold ofChars
    split
    next rest hs => exact absurd (by rw [hs]; rfl) hequals
    next => rfl

/-! ## Layouts -/

theorem not_mem_of_blank {c : Char} (hc : isBlank c = false) (blanks : Blanks) :
    c ∉ blanks.val := by
  intro hmem
  rw [blanks.property c hmem] at hc
  exact absurd hc (by decide)

theorem exists_blanks (s : List Char) : ∃ before after : Blanks, before ++ strip s ++ after = s := by
  obtain ⟨before, after, hbefore, hafter, hs⟩ := exists_append_trimBy (p := isBlank) s
  exact ⟨⟨before, hbefore⟩, ⟨after, hafter⟩, hs⟩

theorem isTrimmed_callChars (before inner : List Char) : IsTrimmed (callChars before inner) := by
  constructor
  · intro c hc
    obtain rfl : '=' = c := Option.some.inj hc
    decide
  · intro c hc
    have hlast : (callChars before inner).getLast? = some ')' := by
      simp [callChars, List.getLast?_cons]
    obtain rfl : ')' = c := Option.some.inj (hlast.symm.trans hc)
    decide

namespace Layout

variable (layout : Layout)

theorem open_not_mem_before : '(' ∉ layout.before := by
  have hblank : isBlank '(' = false := by decide
  simp only [before, List.mem_append, not_or]
  exact ⟨⟨not_mem_of_blank hblank _, layout.open_not_mem⟩, not_mem_of_blank hblank _⟩

theorem strip_before : strip layout.before = layout.function := by
  rw [← layout.isTrimmed_function.strip_eq]
  exact trimBy_append layout.beforeFunction.property _ layout.afterFunction.property

theorem strip_inner : strip layout.inner = layout.argument := by
  rw [← layout.isTrimmed_argument.strip_eq]
  exact trimBy_append layout.beforeArgument.property _ layout.afterArgument.property

theorem strip_chars : strip layout.chars = callChars layout.before layout.inner := by
  rw [← (isTrimmed_callChars layout.before layout.inner).strip_eq]
  exact trimBy_append layout.leading.property _ layout.trailing.property

/-- A call has a layout. -/
theorem exists_of_call {s before inner : List Char} (hopen : '(' ∉ before)
    (hs : strip s = callChars before inner) : ∃ layout : Layout, layout.chars = s ∧
      layout.formula = ⟨String.ofList (upper (strip before)), String.ofList (strip inner)⟩ := by
  obtain ⟨leading, trailing, hchars⟩ := exists_blanks s
  obtain ⟨beforeFunction, afterFunction, hbefore⟩ := exists_blanks before
  obtain ⟨beforeArgument, afterArgument, hinner⟩ := exists_blanks inner
  refine ⟨{
    leading, trailing, beforeFunction, afterFunction, beforeArgument, afterArgument
    function := strip before
    argument := strip inner
    open_not_mem := fun hmem => hopen ((mem_trimBy_iff (by decide)).mp hmem)
    isTrimmed_function := isTrimmed_strip before
    isTrimmed_argument := isTrimmed_strip inner }, ?_, rfl⟩
  simp only [chars, Layout.before, Layout.inner, hbefore, hinner, ← hs, hchars]

/-- What is written has one name and one argument. -/
theorem parts_unique {layout layout' : Layout} (h : layout.chars = layout'.chars) :
    layout.function = layout'.function ∧ layout.argument = layout'.argument := by
  have hcall : callChars layout.before layout.inner = callChars layout'.before layout'.inner := by
    rw [← layout.strip_chars, ← layout'.strip_chars, h]
  obtain ⟨hbefore, hinner⟩ :=
    callChars_inj layout.open_not_mem_before layout'.open_not_mem_before hcall
  rw [← layout.strip_before, ← layout'.strip_before, ← layout.strip_inner,
    ← layout'.strip_inner, hbefore, hinner]
  exact ⟨rfl, rfl⟩

end Layout

/-! ## What is parsed -/

/-- Exactly the written formulas are parsed. -/
theorem ofChars_eq_ok_iff {s : List Char} {formula : Formula} :
    ofChars s = .ok formula ↔ ∃ layout : Layout, layout.chars = s ∧ layout.formula = formula := by
  constructor
  · intro h
    rcases ofChars_cases s with ⟨-, hparse⟩ | ⟨-, -, hparse⟩ | ⟨-, -, -, hparse⟩ |
      ⟨before, inner, hopen, hs, hparse⟩
    · simp [hparse] at h
    · simp [hparse] at h
    · simp [hparse] at h
    · obtain rfl := Except.ok.inj (hparse.symm.trans h)
      exact Layout.exists_of_call hopen hs
  · rintro ⟨layout, rfl, rfl⟩
    rw [ofChars_of_strip layout.strip_chars, ofBody_call layout.open_not_mem_before,
      layout.strip_before, layout.strip_inner, Layout.formula]

/-- A text is a written formula if its first and last characters, blanks aside, are an equals
sign and a closing parenthesis, with an opening one behind the equals sign. -/
theorem exists_layout_iff {s : List Char} : (∃ layout : Layout, layout.chars = s) ↔
    (strip s).head? = some '=' ∧ '(' ∈ (strip s).tail ∧ (strip s).getLast? = some ')' := by
  constructor
  · rintro ⟨layout, rfl⟩
    rw [layout.strip_chars]
    simp [callChars, List.getLast?_cons]
  · rintro ⟨hequals, hopen, hclose⟩
    rcases ofChars_cases s with ⟨hnot, -⟩ | ⟨-, hnot, -⟩ | ⟨-, -, hnot, -⟩ |
      ⟨before, inner, hmem, hs, -⟩
    · exact absurd hequals hnot
    · exact absurd hopen hnot
    · exact absurd hclose hnot
    · obtain ⟨layout, hchars, -⟩ := Layout.exists_of_call hmem hs
      exact ⟨layout, hchars⟩

theorem ofChars_eq_error_iff {s : List Char} {fault : SyntaxFault} :
    ofChars s = .error fault ↔
      ((strip s).head? ≠ some '=' ∧ fault = .missingLeadingEquals) ∨
      ((strip s).head? = some '=' ∧ '(' ∉ (strip s).tail ∧ fault = .missingOpenParen) ∨
      ((strip s).head? = some '=' ∧ '(' ∈ (strip s).tail ∧ (strip s).getLast? ≠ some ')' ∧
        fault = .missingCloseParen (some (strip s).length)) := by
  rcases ofChars_cases s with ⟨hequals, hparse⟩ | ⟨hequals, hopen, hparse⟩ |
      ⟨hequals, hopen, hclose, hparse⟩ | ⟨before, inner, hmem, hs, hparse⟩
  · simp [hparse, hequals, eq_comm]
  · simp [hparse, hequals, hopen, eq_comm]
  · simp [hparse, hequals, hopen, hclose, eq_comm]
  · simp [hparse, hs, callChars, List.getLast?_cons]

/-- The grammar of formulas. A text is parsed if and only if it is a written formula, and then
into its one name, in upper case, and its one argument. Otherwise there is one error: for a text
that, trimmed, does not begin with an equals sign, for one with no opening parenthesis behind
it, and for any other that is not a written formula, with the length of the trimmed text. -/
theorem ofRaw_text_iff_layout (s : String) :
    (∀ formula, ofRaw (.text s) = .ok formula ↔
      ∃ layout : Layout, layout.chars = s.toList ∧ layout.formula = formula) ∧
    (∀ layout layout' : Layout, layout.chars = s.toList → layout'.chars = s.toList →
      layout.function = layout'.function ∧ layout.argument = layout'.argument) ∧
    let trimmed := strip s.toList
    ∀ error, ofRaw (.text s) = .error error ↔
      (trimmed.head? ≠ some '=' ∧ error = .malformed .missingLeadingEquals) ∨
      (trimmed.head? = some '=' ∧ '(' ∉ trimmed.tail ∧ error = .malformed .missingOpenParen) ∨
      (trimmed.head? = some '=' ∧ '(' ∈ trimmed.tail ∧
        (¬ ∃ layout : Layout, layout.chars = s.toList) ∧
        error = .malformed (.missingCloseParen (some trimmed.length))) := by
  have hraw : ofRaw (.text s) = (ofChars s.toList).mapError .malformed := rfl
  refine ⟨?_, ?_, ?_⟩
  · intro formula
    rw [hraw, ← ofChars_eq_ok_iff]
    cases ofChars s.toList <;> simp [Except.mapError]
  · intro layout layout' hchars hchars'
    exact Layout.parts_unique (hchars.trans hchars'.symm)
  · intro trimmed error
    have herror : ofRaw (.text s) = .error error ↔
        ∃ fault, ofChars s.toList = .error fault ∧ error = .malformed fault := by
      rw [hraw]
      cases ofChars s.toList <;> simp [Except.mapError, eq_comm]
    rw [herror, exists_layout_iff]
    simp only [ofChars_eq_error_iff]
    constructor
    · rintro ⟨fault, ⟨hequals, rfl⟩ | ⟨hequals, hopen, rfl⟩ | ⟨hequals, hopen, hclose, rfl⟩, rfl⟩
      · exact .inl ⟨hequals, rfl⟩
      · exact .inr (.inl ⟨hequals, hopen, rfl⟩)
      · exact .inr (.inr ⟨hequals, hopen, fun h => hclose h.2.2, rfl⟩)
    · rintro (⟨hequals, rfl⟩ | ⟨hequals, hopen, rfl⟩ | ⟨hequals, hopen, hnot, rfl⟩)
      · exact ⟨_, .inl ⟨hequals, rfl⟩, rfl⟩
      · exact ⟨_, .inr (.inl ⟨hequals, hopen, rfl⟩), rfl⟩
      · exact ⟨_, .inr (.inr ⟨hequals, hopen, fun hclose => hnot ⟨hequals, hopen, hclose⟩, rfl⟩),
          rfl⟩

end ColumnFormula.Formula
