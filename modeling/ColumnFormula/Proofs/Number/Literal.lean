import ColumnFormula.Cell
import ColumnFormula.Proofs.Number.Digits
import ColumnFormula.Proofs.Number.Nearest
import ColumnFormula.Proofs.Text.Trim

/-!
# Number literals

The grammar of the numbers that cells hold, and the rational number that each literal denotes:
digits with at most one point in front of them, among them or behind them, a sign that may be
left out, and an exponent that may be left out, with a sign or without. Exactly the literals are
taken for decimals, and the decimal of a literal has the value of the literal. So a text is a
number exactly if it is a literal in range, and the number is the one nearest to its value.
-/

namespace ColumnFormula

namespace Literal

/-! ## The grammar -/

/-- One ASCII digit or more. -/
structure Digits where
  chars : List Char
  ne_nil : chars ≠ []
  isDigit : ∀ c ∈ chars, c.isDigit = true

/-- A sign, which may be left out. -/
inductive Sign where
  | none | plus | minus

/-- Digits, possibly with a point. -/
inductive Mantissa where
  | whole (digits : Digits)
  /-- A point behind the digits in front of it, possibly with more digits behind it. -/
  | pointed (whole : Digits) (fraction : Option Digits)
  | fraction (digits : Digits)

/-- A power of ten by its exponent. -/
structure Exponent where
  isCapital : Bool
  sign : Sign
  digits : Digits

end Literal

/-- A number as it is written. -/
structure Literal where
  sign : Literal.Sign
  mantissa : Literal.Mantissa
  exponent : Option Literal.Exponent

namespace Literal

open Decimal

def Sign.chars : Sign → List Char
  | none => []
  | plus => ['+']
  | minus => ['-']

def Sign.isNegative : Sign → Bool
  | minus => true
  | _ => false

/-- The digits in front of the point. -/
def Mantissa.before : Mantissa → List Char
  | whole digits | pointed digits _ => digits.chars
  | fraction _ => []

/-- The digits behind the point. -/
def Mantissa.behind : Mantissa → List Char
  | whole _ | pointed _ none => []
  | pointed _ (some digits) | fraction digits => digits.chars

/-- The point and the digits behind it. -/
def Mantissa.pointChars : Mantissa → List Char
  | whole _ => []
  | mantissa => '.' :: mantissa.behind

def Exponent.chars (exponent : Exponent) : List Char :=
  (if exponent.isCapital then 'E' else 'e') :: (exponent.sign.chars ++ exponent.digits.chars)

/-- The text of an exponent that may be left out. -/
def exponentChars (exponent : Option Exponent) : List Char :=
  exponent.elim [] Exponent.chars

/-- The text of a literal. -/
def chars (literal : Literal) : List Char :=
  literal.sign.chars ++ (literal.mantissa.before ++
    (literal.mantissa.pointChars ++ exponentChars literal.exponent))

/-! ## Values -/

def Mantissa.value (mantissa : Mantissa) : ℚ :=
  digitsValue mantissa.before + digitsValue mantissa.behind / 10 ^ mantissa.behind.length

def Exponent.value (exponent : Exponent) : ℤ :=
  Binary64.signFactor exponent.sign.isNegative * digitsValue exponent.digits.chars

/-- An exponent that is left out is zero. -/
def exponentValue (exponent : Option Exponent) : ℤ :=
  exponent.elim 0 Exponent.value

/-- The exact number that a literal denotes. -/
def value (literal : Literal) : ℚ :=
  Binary64.signFactor literal.sign.isNegative * literal.mantissa.value *
    10 ^ exponentValue literal.exponent

def toDecimal (literal : Literal) : Decimal :=
  .ofParts literal.sign.isNegative literal.mantissa.before literal.mantissa.behind
    (exponentValue literal.exponent)

/-- The decimal of a literal has the value of the literal. -/
theorem value_toDecimal (literal : Literal) : literal.toDecimal.value = literal.value := by
  unfold Decimal.value value toDecimal Decimal.ofParts Mantissa.value
  have hten : (10 : ℚ) ≠ 0 := by norm_num
  dsimp only
  rw [digitsValue_append, Nat.pow_eq, zpow_sub₀ hten, zpow_natCast]
  push_cast
  field_simp

/-! ## Literals are read -/

variable {rest : List Char}

theorem Digits.isDigit_head? (digits : Digits) (rest : List Char) :
    ∀ c ∈ (digits.chars ++ rest).head?, c.isDigit = true := by
  intro c hc
  obtain ⟨d, ds, hds⟩ := List.exists_cons_of_ne_nil digits.ne_nil
  rw [hds, List.cons_append, List.head?_cons, Option.mem_some_iff] at hc
  apply digits.isDigit
  rw [hds, ← hc]
  exact List.mem_cons_self

theorem ne_sign_of_isDigit {c : Char} (h : c.isDigit = true ∨ c = '.') : c ≠ '+' ∧ c ≠ '-' := by
  constructor
  · rintro rfl
    exact absurd h (by decide)
  · rintro rfl
    exact absurd h (by decide)

/-- A sign is read if none follows it. -/
theorem takeSign_chars (sign : Sign) (h : ∀ c ∈ rest.head?, c.isDigit = true ∨ c = '.') :
    takeSign (sign.chars ++ rest) = (sign.isNegative, rest) := by
  cases sign with
  | none =>
      rw [Sign.chars, List.nil_append]
      unfold takeSign
      split
      next => exact absurd rfl (ne_sign_of_isDigit (h '-' rfl)).2
      next => exact absurd rfl (ne_sign_of_isDigit (h '+' rfl)).1
      next => rfl
  | plus => rfl
  | minus => rfl

theorem exponent?_exponentChars (exponent : Option Exponent) :
    exponent? (exponentChars exponent) = some (exponentValue exponent) := by
  cases exponent with
  | none => rfl
  | some exponent =>
      have hhead : ∀ c ∈ exponent.digits.chars.head?, c.isDigit = true ∨ c = '.' := by
        intro c hc
        rw [← List.append_nil exponent.digits.chars] at hc
        exact .inl (exponent.digits.isDigit_head? [] c hc)
      have hsign := takeSign_chars exponent.sign hhead
      have hend : ∀ c ∈ ([] : List Char).head?, c.isDigit = false := nofun
      have hdigits := takeDigits_append exponent.digits.isDigit hend
      rw [List.append_nil] at hdigits
      have hletter : (if exponent.isCapital then 'E' else 'e') = 'e' ∨
          (if exponent.isCapital then 'E' else 'e') = 'E' := by
        cases exponent.isCapital <;> decide
      simp only [exponentChars, Option.elim_some, Exponent.chars, exponent?, if_pos hletter, hsign,
        hdigits, List.isEmpty_iff, exponent.digits.ne_nil, false_or, not_true, if_false,
        exponentValue, Exponent.value, Binary64.signFactor]
      cases exponent.sign.isNegative <;> simp

theorem isDigit_head?_exponentChars (exponent : Option Exponent) :
    ∀ c ∈ (exponentChars exponent).head?, c.isDigit = false := by
  cases exponent with
  | none => nofun
  | some exponent =>
      intro c hc
      obtain rfl : (if exponent.isCapital then 'E' else 'e') = c := by
        simpa [exponentChars, Exponent.chars] using hc
      cases exponent.isCapital <;> decide

/-- Digits are read up to the exponent. -/
theorem takeDigits_exponentChars {ds : List Char} (h : ∀ c ∈ ds, c.isDigit = true)
    (exponent : Option Exponent) :
    takeDigits (ds ++ exponentChars exponent) = (ds, exponentChars exponent) :=
  takeDigits_append h (isDigit_head?_exponentChars exponent)

theorem Mantissa.isDigit_before (mantissa : Mantissa) :
    ∀ c ∈ mantissa.before, c.isDigit = true := by
  cases mantissa with
  | whole digits => exact digits.isDigit
  | pointed digits _ => exact digits.isDigit
  | fraction _ => nofun

theorem Mantissa.isDigit_behind (mantissa : Mantissa) :
    ∀ c ∈ mantissa.behind, c.isDigit = true := by
  cases mantissa with
  | whole _ => nofun
  | pointed _ fraction =>
      cases fraction with
      | none => nofun
      | some digits => exact digits.isDigit
  | fraction digits => exact digits.isDigit

theorem Mantissa.not_empty (mantissa : Mantissa) :
    ¬ (mantissa.before = [] ∧ mantissa.behind = []) := by
  rintro ⟨hbefore, hbehind⟩
  cases mantissa with
  | whole digits => exact digits.ne_nil hbefore
  | pointed digits _ => exact digits.ne_nil hbefore
  | fraction digits => exact digits.ne_nil hbehind

/-- A mantissa begins with a digit or with its point. -/
theorem Mantissa.head? (mantissa : Mantissa) (rest : List Char) :
    ∀ c ∈ (mantissa.before ++ (mantissa.pointChars ++ rest)).head?, c.isDigit = true ∨ c = '.' := by
  intro c hc
  cases mantissa with
  | whole digits => exact .inl (digits.isDigit_head? _ c hc)
  | pointed digits _ => exact .inl (digits.isDigit_head? _ c hc)
  | fraction _ => exact .inr (Option.mem_some_iff.mp hc).symm

/-- The digits behind a point in front, and what follows them. -/
def takeFraction : List Char → List Char × List Char
  | '.' :: s => takeDigits s
  | s => ([], s)

/-- The stages of reading, each with what the one before it has left. -/
theorem ofChars?_eq (s : List Char) :
    Decimal.ofChars? s =
      let sign := takeSign s
      let whole := takeDigits sign.2
      let fraction := takeFraction whole.2
      if whole.1.isEmpty ∧ fraction.1.isEmpty then none
      else (exponent? fraction.2).map (ofParts sign.1 whole.1 fraction.1) :=
  rfl

theorem takeFraction_pointChars (mantissa : Mantissa) (exponent : Option Exponent) :
    takeFraction (mantissa.pointChars ++ exponentChars exponent) =
      (mantissa.behind, exponentChars exponent) := by
  cases mantissa with
  | whole digits =>
      cases exponent with
      | none => rfl
      | some exponent => cases hcapital : exponent.isCapital <;>
          simp [Mantissa.pointChars, Mantissa.behind, exponentChars, Exponent.chars, takeFraction,
            hcapital]
  | pointed digits fraction => exact takeDigits_exponentChars (Mantissa.isDigit_behind _) exponent
  | fraction digits => exact takeDigits_exponentChars digits.isDigit exponent

/-- What follows the digits in front of the point is no digit. -/
theorem isDigit_head?_pointChars (mantissa : Mantissa) (exponent : Option Exponent) :
    ∀ c ∈ (mantissa.pointChars ++ exponentChars exponent).head?, c.isDigit = false := by
  cases mantissa with
  | whole digits => exact isDigit_head?_exponentChars exponent
  | _ =>
      intro c hc
      obtain rfl : '.' = c := Option.mem_some_iff.mp hc
      decide

/-- Every literal is read, as its decimal. -/
theorem ofChars?_chars (literal : Literal) :
    Decimal.ofChars? literal.chars = some literal.toDecimal := by
  obtain ⟨sign, mantissa, exponent⟩ := literal
  rw [ofChars?_eq, chars]
  simp only [takeSign_chars sign (mantissa.head? (exponentChars exponent)),
    takeDigits_append mantissa.isDigit_before (isDigit_head?_pointChars mantissa exponent),
    takeFraction_pointChars, List.isEmpty_iff, mantissa.not_empty, if_false,
    exponent?_exponentChars, Option.map_some]
  rfl

/-! ## What is read is a literal -/

theorem exists_sign (s : List Char) :
    ∃ sign : Sign, sign.chars ++ (takeSign s).2 = s ∧ sign.isNegative = (takeSign s).1 := by
  unfold takeSign
  split
  next s => exact ⟨.minus, rfl, rfl⟩
  next s => exact ⟨.plus, rfl, rfl⟩
  next s _ _ => exact ⟨.none, rfl, rfl⟩

theorem exists_exponent {s : List Char} {value : ℤ} (h : exponent? s = some value) :
    ∃ exponent, exponentChars exponent = s ∧ exponentValue exponent = value := by
  cases s with
  | nil => exact ⟨none, rfl, Option.some.inj h⟩
  | cons c s =>
      obtain ⟨sign, hsign, hnegative⟩ := exists_sign s
      obtain ⟨hdigits, hall⟩ := takeDigits_spec (takeSign s).2
      unfold exponent? at h
      dsimp only at h
      split at h
      next hletter =>
        split at h
        · cases h
        next hrest =>
          rw [not_or, not_not, List.isEmpty_iff, List.isEmpty_iff] at hrest
          obtain ⟨hne, hnil⟩ := hrest
          rw [hnil, List.append_nil] at hdigits
          refine ⟨some ⟨c = 'E', sign, ⟨_, hne, hall⟩⟩, ?_, ?_⟩
          · have hc : (if c = 'E' then 'E' else 'e') = c := by
              rcases hletter with rfl | rfl <;> rfl
            simp only [exponentChars, Option.elim_some, Exponent.chars, decide_eq_true_eq, hc,
              hdigits, hsign]
          · rw [← Option.some.inj h, ← hnegative]
            simp only [exponentValue, Option.elim_some, Exponent.value, Binary64.signFactor]
            cases sign.isNegative <;> simp
      next => cases h

/-- Digits on either side of a point, or of none, are a mantissa. -/
theorem exists_mantissa {before s : List Char} (hbefore : ∀ c ∈ before, c.isDigit = true)
    (hne : ¬ (before = [] ∧ (takeFraction s).1 = [])) :
    ∃ mantissa : Mantissa, mantissa.before = before ∧ mantissa.behind = (takeFraction s).1 ∧
      mantissa.pointChars ++ (takeFraction s).2 = s := by
  unfold takeFraction at hne ⊢
  split
  next s =>
    -- Behind a point, the kind of mantissa is told by which of the two rows of digits is empty.
    obtain ⟨hs, hbehind⟩ := takeDigits_spec s
    by_cases hbeforeNil : before = []
    · have hbehindNe : (takeDigits s).1 ≠ [] := fun hnil => hne ⟨hbeforeNil, hnil⟩
      exact ⟨.fraction ⟨_, hbehindNe, hbehind⟩, hbeforeNil.symm, rfl, congrArg ('.' :: ·) hs⟩
    by_cases hbehindNil : (takeDigits s).1 = []
    · rw [hbehindNil] at hs ⊢
      exact ⟨.pointed ⟨before, hbeforeNil, hbefore⟩ none, rfl, rfl, congrArg ('.' :: ·) hs⟩
    · exact ⟨.pointed ⟨before, hbeforeNil, hbefore⟩ (some ⟨_, hbehindNil, hbehind⟩), rfl, rfl,
        congrArg ('.' :: ·) hs⟩
  next hpoint =>
    have hbeforeNe : before ≠ [] := by
      rintro rfl
      exact hne ⟨rfl, by split <;> first | rfl | exact absurd rfl (hpoint _)⟩
    exact ⟨.whole ⟨before, hbeforeNe, hbefore⟩, rfl, rfl, rfl⟩

/-- The grammar: exactly the literals are read, each as its decimal. -/
theorem ofChars?_eq_some_iff {s : List Char} {x : Decimal} :
    Decimal.ofChars? s = some x ↔ ∃ literal : Literal, literal.chars = s ∧ literal.toDecimal = x := by
  constructor
  · intro h
    -- Each stage of reading is one part of the literal, and leaves the text of the parts behind it.
    obtain ⟨sign, hsign, hnegative⟩ := exists_sign s
    obtain ⟨hwhole, hbefore⟩ := takeDigits_spec (takeSign s).2
    rw [ofChars?_eq] at h
    dsimp only at h
    split at h
    · cases h
    next hempty =>
      rw [List.isEmpty_iff, List.isEmpty_iff] at hempty
      obtain ⟨value, hvalue, hx⟩ := Option.map_eq_some_iff.mp h
      obtain ⟨exponent, hexponent, hexponentValue⟩ := exists_exponent hvalue
      obtain ⟨mantissa, hwholeChars, hfraction, hpoint⟩ := exists_mantissa hbefore hempty
      refine ⟨⟨sign, mantissa, exponent⟩, ?_, ?_⟩
      · rw [chars, hexponent, hpoint, hwholeChars, hwhole, hsign]
      · rw [toDecimal, hnegative, hwholeChars, hfraction, hexponentValue, hx]
  · rintro ⟨literal, rfl, rfl⟩
    exact ofChars?_chars literal

/-! ## Blanks -/

theorem isBlank_of_isDigit {c : Char} (h : c.isDigit = true) : Text.isBlank c = false := by
  simp only [Char.isDigit, Bool.and_eq_true, decide_eq_true_eq] at h
  have hlow : 48 ≤ c.toNat := h.1
  have hhigh : c.toNat ≤ 57 := h.2
  simp only [Text.isBlank, Text.isWhiteSpace, Bool.or_eq_false_iff, Bool.and_eq_false_iff,
    decide_eq_false_iff_not, beq_eq_false_iff_ne]
  omega

theorem Sign.isBlank_of_mem (sign : Sign) : ∀ c ∈ sign.chars, Text.isBlank c = false := by
  cases sign with
  | none =>
      intro c hc
      cases hc
  | plus => exact List.forall_mem_singleton.mpr (by decide)
  | minus => exact List.forall_mem_singleton.mpr (by decide)

theorem isBlank_of_mem_exponentChars (exponent : Option Exponent) :
    ∀ c ∈ exponentChars exponent, Text.isBlank c = false := by
  cases exponent with
  | none =>
      intro c hc
      cases hc
  | some exponent =>
      have hletter : Text.isBlank (if exponent.isCapital then 'E' else 'e') = false := by
        split <;> decide
      rw [exponentChars, Option.elim_some, Exponent.chars, List.forall_mem_cons,
        List.forall_mem_append]
      exact ⟨hletter, exponent.sign.isBlank_of_mem,
        fun c hc => isBlank_of_isDigit (exponent.digits.isDigit c hc)⟩

/-- A literal has no blanks. -/
theorem isBlank_of_mem_chars (literal : Literal) :
    ∀ c ∈ literal.chars, Text.isBlank c = false := by
  have hbefore := fun c hc => isBlank_of_isDigit (literal.mantissa.isDigit_before c hc)
  have hbehind := fun c hc => isBlank_of_isDigit (literal.mantissa.isDigit_behind c hc)
  have hpoint : ∀ c ∈ literal.mantissa.pointChars, Text.isBlank c = false := by
    unfold Mantissa.pointChars
    split
    next =>
      intro c hc
      cases hc
    next => exact List.forall_mem_cons.mpr ⟨by decide, hbehind⟩
  rw [chars, List.forall_mem_append, List.forall_mem_append, List.forall_mem_append]
  exact ⟨literal.sign.isBlank_of_mem, hbefore, hpoint,
    isBlank_of_mem_exponentChars literal.exponent⟩

theorem chars_ne_nil (literal : Literal) : literal.chars ≠ [] := by
  intro hnil
  have hread := literal.ofChars?_chars
  rw [hnil] at hread
  cases hread

end Literal

/-! ## What is taken for a number -/

namespace Cell

variable {s : List Char} {x : Binary64}

theorem parseNumber?_eq_some_iff :
    parseNumber? s = some x ↔
      ∃ decimal, Decimal.ofChars? s = some decimal ∧ decimal.toBinary64.isFinite = true ∧
        decimal.toBinary64 = x := by
  unfold parseNumber?
  cases Decimal.ofChars? s with
  | none => simp
  | some decimal => simp

theorem parseNumber?_chars (literal : Literal) :
    parseNumber? literal.chars = some x ↔
      |literal.value| < 2 ^ 1024 - 2 ^ 970 ∧ x.IsNearest literal.sign.isNegative literal.value := by
  have hvalue := literal.value_toDecimal
  have hfinite := literal.toDecimal.isFinite_toBinary64_iff
  have hnearest := fun h => Decimal.isNearest_iff (x := literal.toDecimal) h (y := x)
  rw [hvalue] at hfinite hnearest
  simp only [parseNumber?_eq_some_iff, literal.ofChars?_chars, Option.some.injEq, exists_eq_left']
  constructor
  · rintro ⟨h, rfl⟩
    exact ⟨hfinite.mp h, (hnearest h).mpr rfl⟩
  · rintro ⟨hrange, hx⟩
    exact ⟨hfinite.mpr hrange, ((hnearest (hfinite.mpr hrange)).mp hx).symm⟩

/-- What is taken for a number. A text is a number if and only if it is a literal, of which the
exact value lies below the half-way point above the greatest number; and then it is the number
nearest to this value, the even one of two, with the sign of the literal. -/
theorem number_grammar :
    (∀ s, (parseNumber? s).isSome = true ↔
      ∃ literal : Literal, literal.chars = s ∧ |literal.value| < 2 ^ 1024 - 2 ^ 970) ∧
    ∀ (literal : Literal) (x : Binary64), parseNumber? literal.chars = some x ↔
      |literal.value| < 2 ^ 1024 - 2 ^ 970 ∧
        x.IsNearest literal.sign.isNegative literal.value := by
  refine ⟨fun s => ?_, fun literal x => parseNumber?_chars literal⟩
  rw [Option.isSome_iff_exists]
  simp only [parseNumber?_eq_some_iff, Literal.ofChars?_eq_some_iff]
  constructor
  · rintro ⟨x, decimal, ⟨literal, rfl, rfl⟩, hfinite, -⟩
    exact ⟨literal, rfl, literal.value_toDecimal ▸
      literal.toDecimal.isFinite_toBinary64_iff.mp hfinite⟩
  · rintro ⟨literal, rfl, hrange⟩
    exact ⟨_, literal.toDecimal, ⟨literal, rfl, rfl⟩,
      literal.toDecimal.isFinite_toBinary64_iff.mpr (literal.value_toDecimal ▸ hrange), rfl⟩

/-- What is taken for a number has no blanks around it, so it is the number of its cell. -/
theorem number?_of_parseNumber? (h : parseNumber? s = some x) :
    number? (.text (String.ofList s)) = some x := by
  obtain ⟨decimal, hdecimal, -⟩ := parseNumber?_eq_some_iff.mp h
  obtain ⟨literal, rfl, -⟩ := Literal.ofChars?_eq_some_iff.mp hdecimal
  have hstrip : Text.strip literal.chars = literal.chars := Text.trimBy_eq_self
    (fun c hc => literal.isBlank_of_mem_chars c (List.mem_of_head? hc))
    (fun c hc => literal.isBlank_of_mem_chars c (List.mem_of_getLast? hc))
  rw [number?, content?, RawText.chars?, String.toList_ofList]
  simp only [hstrip, List.isEmpty_iff, literal.chars_ne_nil, if_false, Option.bind_some, h]

example : parseNumber? "0e999".toList = some .zero ∧ parseNumber? "1e999".toList = none ∧
    parseNumber? "-.5e-400".toList = some Binary64.zero.neg := by
  decide +kernel

end Cell

end ColumnFormula
