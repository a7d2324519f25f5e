import ColumnFormula.Json.Printer
import ColumnFormula.Json.Reader

/-!
# Strings read back

Every character is read back from its escape, whatever follows: a character outside of the
first 65536 code points from the two halves of its pair, any other from one unit, which is
never taken for the first half of a pair. So every string reads back, up to its closing quote.
-/

namespace ColumnFormula.Json

/-! ## Units -/

theorem hexValue?_digitChar : ∀ d < 16, hexValue? (Nat.digitChar d) = some d := by
  decide

theorem hexDigits_four (n : Nat) :
    Text.hexDigits 4 n = [Nat.digitChar (n / 4096 % 16), Nat.digitChar (n / 256 % 16),
      Nat.digitChar (n / 16 % 16), Nat.digitChar (n % 16)] := by
  simp [Text.hexDigits, Nat.div_div_eq_div_mul]

/-- The four digits of a unit are read as the unit. -/
theorem unit?_digitChar {n : Nat} (h : n < 65536) :
    unit? (Nat.digitChar (n / 4096 % 16)) (Nat.digitChar (n / 256 % 16))
      (Nat.digitChar (n / 16 % 16)) (Nat.digitChar (n % 16)) = some n := by
  have hdigit : ∀ m, hexValue? (Nat.digitChar (m % 16)) = some (m % 16) := fun m =>
    hexValue?_digitChar _ (Nat.mod_lt _ (by omega))
  simp only [unit?, hdigit, bind, Option.bind, Option.some.injEq]
  omega

theorem readChar_escapeUnit (n : Nat) (s : List Char) :
    readChar (escapeUnit n ++ s) =
      readUnits (Nat.digitChar (n / 4096 % 16)) (Nat.digitChar (n / 256 % 16))
        (Nat.digitChar (n / 16 % 16)) (Nat.digitChar (n % 16)) s := by
  rw [escapeUnit, hexDigits_four]
  rfl

/-- A unit that begins no pair is a character on its own. -/
theorem readUnits_single {a b c d : Char} {n : Nat} (hunit : unit? a b c d = some n)
    (hhigh : isHighUnit n = false) (s : List Char) :
    readUnits a b c d s = some (unitChar n, s) := by
  unfold readUnits
  rw [hunit]
  simp only [bind, Option.bind]
  split
  · simp [hhigh]
  · rfl

/-- Two halves of a pair are one character. -/
theorem readUnits_pair {a b c d e f g h : Char} {high low : Nat}
    (hfirst : unit? a b c d = some high) (hsecond : unit? e f g h = some low)
    (hhigh : isHighUnit high = true) (hlow : isLowUnit low = true) (s : List Char) :
    readUnits a b c d ('\\' :: 'u' :: e :: f :: g :: h :: s) =
      some (pairChar high low, s) := by
  simp [readUnits, hfirst, hsecond, hhigh, hlow]

/-! ## Characters -/

theorem toNat_valid (c : Char) :
    c.toNat < 0xD800 ∨ (0xDFFF < c.toNat ∧ c.toNat < 0x110000) :=
  c.valid

/-- No character is one half of a pair. -/
theorem isHighUnit_toNat (c : Char) : isHighUnit c.toNat = false ∧ isLowUnit c.toNat = false := by
  have hvalid := toNat_valid c
  simp only [isHighUnit, isLowUnit, Bool.and_eq_false_iff, decide_eq_false_iff_not]
  omega

theorem readChar_of_ne {c : Char} (hc : c ≠ '\\') (hcode : 0x20 ≤ c.toNat) (s : List Char) :
    readChar (c :: s) = some (c, s) := by
  have hnot : ¬ c.toNat < 0x20 := by omega
  rw [readChar.eq_def]
  split
  next heq => exact absurd (List.cons.inj heq).1 hc
  next heq => exact absurd (List.cons.inj heq).1 hc
  next heq => exact absurd (List.cons.inj heq).1 hc
  next heq =>
    obtain ⟨rfl, rfl⟩ := List.cons.inj heq
    rw [if_neg hnot]
  next heq => cases heq

theorem readChar_escapeChar (c : Char) (s : List Char) :
    readChar (escapeChar c ++ s) = some (c, s) := by
  obtain ⟨hhigh, hlow⟩ := isHighUnit_toNat c
  have hvalid := toNat_valid c
  unfold escapeChar
  split
  · subst c; rfl
  split
  · subst c; rfl
  split
  · subst c; rfl
  split
  · subst c; rfl
  split
  · subst c; rfl
  split
  · subst c; rfl
  split
  · subst c; rfl
  split
  next hbackslash _ _ _ _ _ hcode => exact readChar_of_ne hbackslash hcode.1 s
  split
  next hunit =>
    rw [readChar_escapeUnit, readUnits_single (unit?_digitChar hunit) hhigh, unitChar, hhigh,
      hlow]
    simp
  next hunit =>
    -- The code point less 65536 has twenty bits, ten for each half of the pair.
    have hfirst : 0xD800 + (c.toNat - 0x10000) / 0x400 < 65536 := by omega
    have hsecond : 0xDC00 + (c.toNat - 0x10000) % 0x400 < 65536 := by omega
    have hpair : 0x10000 + (0xD800 + (c.toNat - 0x10000) / 0x400 - 0xD800) * 0x400 +
        (0xDC00 + (c.toNat - 0x10000) % 0x400 - 0xDC00) = c.toNat := by omega
    rw [List.append_assoc, readChar_escapeUnit, escapeUnit, hexDigits_four]
    simp only [List.cons_append, List.nil_append]
    rw [readUnits_pair (unit?_digitChar hfirst) (unit?_digitChar hsecond), pairChar, hpair,
      Char.ofNat_toNat]
    · simp only [isHighUnit, Bool.and_eq_true, decide_eq_true_eq]
      omega
    · simp only [isLowUnit, Bool.and_eq_true, decide_eq_true_eq]
      omega

/-! ## Strings -/

theorem escapeChar_head (c : Char) : ∃ first rest, escapeChar c = first :: rest ∧ first ≠ '"' := by
  unfold escapeChar escapeUnit
  split
  · exact ⟨_, _, rfl, by decide⟩
  next hquote =>
    repeat' split
    all_goals first
      | exact ⟨_, _, rfl, by decide⟩
      | exact ⟨_, _, rfl, hquote⟩

/-- The inside of a string reads back up to its closing quote. -/
theorem readString_flatMap_escapeChar {fuel : Nat} {s : List Char} (hfuel : s.length < fuel)
    (rest : List Char) :
    readString fuel (s.flatMap escapeChar ++ '"' :: rest) = .ok (s, rest) := by
  induction s generalizing fuel with
  | nil =>
      obtain ⟨fuel, rfl⟩ := Nat.exists_eq_add_of_lt hfuel
      rfl
  | cons c s ih =>
      cases fuel with
      | zero => simp at hfuel
      | succ fuel =>
          obtain ⟨first, tail, hescape, hquote⟩ := escapeChar_head c
          have hchar := readChar_escapeChar c (s.flatMap escapeChar ++ '"' :: rest)
          rw [List.flatMap_cons, List.append_assoc]
          rw [hescape] at hchar ⊢
          rw [List.cons_append, readString.eq_def]
          simp only
          split
          next heq => exact absurd (List.cons.inj heq).1 hquote
          next =>
            rw [List.cons_append] at hchar
            rw [hchar]
            simp only [ih (Nat.lt_of_succ_lt_succ hfuel), Except.map]

end ColumnFormula.Json
