import Mathlib.Tactic.SplitIfs
import ColumnFormula.Proofs.Text.Utf8

/-!
# Bytes that encode no text

Bytes are well-formed if they encode a text, and exactly these are decoded. A number is carried by
bytes in the places of its binary digits, but these bytes belong to a text only if the number is a
character and fits in no fewer bytes; and no character is left before its last byte.
-/

namespace ColumnFormula.Text.Utf8

variable {bytes front back rest after : List UInt8} {c : Char} {n : Nat}

/-- Whether some bytes encode a text. -/
def IsWellFormed (bytes : List UInt8) : Prop :=
  ∃ s, encode s = bytes

theorem decode?_eq_none_iff : decode? bytes = none ↔ ¬ IsWellFormed bytes := by
  rw [Option.eq_none_iff_forall_not_mem, IsWellFormed, not_exists]
  exact forall_congr' fun s => not_congr decode?_eq_some_iff

/-- A text is taken apart at a character as its bytes are. -/
theorem isWellFormed_append_iff :
    IsWellFormed (String.utf8EncodeChar c ++ after) ↔ IsWellFormed after := by
  constructor
  · rintro ⟨s, hs⟩
    have hpieces := pieces_encode s
    rw [hs, pieces_utf8EncodeChar] at hpieces
    cases s with
    | nil => cases hpieces
    | cons d s => exact ⟨s, encode_of_pieces (List.cons.inj hpieces).2⟩
  · rintro ⟨s, rfl⟩
    exact ⟨c :: s, rfl⟩

theorem not_isWellFormed_of_forall (hne : bytes ≠ [])
    (h : ∀ c after, bytes ≠ String.utf8EncodeChar c ++ after) : ¬ IsWellFormed bytes := by
  rintro ⟨s, rfl⟩
  cases s with
  | nil => exact hne rfl
  | cons c s => exact h c (encode s) rfl

/-! ## Numbers carried by bytes -/

/-- How many bytes carry a number. -/
inductive Width where
  | two | three | four

namespace Width

/-- The least character that takes so many bytes. -/
def least : Width → Nat
  | two => 0x80
  | three => 0x800
  | four => 0x10000

/-- The first number that so many bytes cannot carry. -/
def limit : Width → Nat
  | two => 0x800
  | three => 0x10000
  | four => 0x200000

/-- The bytes that carry a number, be it a character or not. -/
def carry : Width → Nat → List UInt8
  | two, n => [UInt8.ofNat (n / 64 + 0xC0), UInt8.ofNat (n % 64 + 0x80)]
  | three, n =>
    [UInt8.ofNat (n / 4096 + 0xE0), UInt8.ofNat (n / 64 % 64 + 0x80), UInt8.ofNat (n % 64 + 0x80)]
  | four, n =>
    [UInt8.ofNat (n / 262144 + 0xF0), UInt8.ofNat (n / 4096 % 64 + 0x80),
      UInt8.ofNat (n / 64 % 64 + 0x80), UInt8.ofNat (n % 64 + 0x80)]

theorem carry_ne_nil (width : Width) (n : Nat) : width.carry n ≠ [] := by
  cases width <;> exact List.cons_ne_nil _ _

end Width

theorem ofNat_eq_iff {m n : Nat} : UInt8.ofNat m = UInt8.ofNat n ↔ m % 256 = n % 256 := by
  rw [← UInt8.toNat_inj, UInt8.toNat_ofNat', UInt8.toNat_ofNat']

/-- A character that begins with bytes that carry a number is this number, and takes as many. -/
theorem toNat_of_carry {width : Width} (hn : n < width.limit)
    (h : width.carry n ++ rest = String.utf8EncodeChar c ++ after) :
    c.toNat = n ∧ width.least ≤ n := by
  have hvalid : c.toNat < 0xD800 ∨ (0xDFFF < c.toNat ∧ c.toNat < 0x110000) := c.valid
  rw [utf8EncodeChar_eq] at h
  -- If the character takes another number of bytes, its first byte is another one.
  cases width with
  | _ =>
      simp only [Width.limit, Width.least, Width.carry] at hn h ⊢
      split_ifs at h
      all_goals
        simp only [List.cons_append, List.nil_append, List.cons.injEq, ofNat_eq_iff] at h
        omega

/-! ## Characters left before their end -/

/-- Whether a byte continues a character that another one has begun. -/
def IsContinuation (b : UInt8) : Prop :=
  0x80 ≤ b ∧ b ≤ 0xBF

theorem isContinuation_ofNat (n : Nat) : IsContinuation (UInt8.ofNat (n % 0x40 + 0x80)) := by
  rw [IsContinuation, UInt8.le_iff_toNat_le, UInt8.le_iff_toNat_le, toNat_ofNat_of_lt (by omega)]
  simp only [UInt8.reduceToNat]
  omega

/-- All bytes of a character but the first continue it. -/
theorem isContinuation_of_mem_tail {b : UInt8} (h : b ∈ (String.utf8EncodeChar c).tail) :
    IsContinuation b := by
  rw [utf8EncodeChar_eq] at h
  split_ifs at h
  · cases h
  all_goals
    simp only [List.tail_cons, List.mem_cons, List.not_mem_nil, or_false] at h
    rcases h with rfl | rfl | rfl
    all_goals exact isContinuation_ofNat _

/-- The bytes of a character begin with those of no other one. -/
theorem eq_nil_of_utf8EncodeChar_append {d : Char}
    (h : String.utf8EncodeChar c = String.utf8EncodeChar d ++ after) : after = [] := by
  have hpieces := pieces_utf8EncodeChar c []
  rw [List.append_nil, h, pieces_utf8EncodeChar] at hpieces
  by_contra hne
  exact pieces_ne_nil (.inr hne) (List.cons.inj hpieces).2

/-- A character of which bytes are missing at its end is not taken for another one. -/
theorem ne_of_truncated {d : Char} (hc : String.utf8EncodeChar c = front ++ back)
    (hfront : front ≠ []) (hback : back ≠ []) (hrest : ∀ b ∈ rest.head?, ¬ IsContinuation b) :
    front ++ rest ≠ String.utf8EncodeChar d ++ after := by
  intro h
  rcases List.append_eq_append_iff.mp h with ⟨more, hd, hmore⟩ | ⟨more, hd, hmore⟩
  · cases more with
    | nil =>
        rw [List.append_nil] at hd
        rw [← hd] at hc
        exact hback (eq_nil_of_utf8EncodeChar_append hc)
    | cons b more =>
        -- The other character takes a byte from behind the cut, which then continues it.
        apply hrest b (by rw [hmore]; rfl)
        apply isContinuation_of_mem_tail (c := d)
        rw [hd, List.tail_append_of_ne_nil hfront]
        exact List.mem_append_right _ List.mem_cons_self
  · rw [hd, List.append_assoc] at hc
    have hnil := eq_nil_of_utf8EncodeChar_append hc
    exact hback (List.append_eq_nil_iff.mp hnil).2

/-- Bytes with a fault, as they are or behind a text: a number that is carried by more bytes than
it takes, or that is no character, or a character that is left before its last byte. -/
inductive HasFault : List UInt8 → Prop
  | carried {width : Width} {n : Nat} (rest : List UInt8) : n < width.limit →
      (n < width.least ∨ ¬ n.isValidChar) → HasFault (width.carry n ++ rest)
  | truncated {c : Char} {front back rest : List UInt8} :
      String.utf8EncodeChar c = front ++ back → front ≠ [] → back ≠ [] →
      (∀ b ∈ rest.head?, ¬ IsContinuation b) → HasFault (front ++ rest)
  | behind {bytes : List UInt8} (s : List Char) : HasFault bytes → HasFault (encode s ++ bytes)

theorem HasFault.not_isWellFormed (h : HasFault bytes) : ¬ IsWellFormed bytes := by
  induction h with
  | @carried width n rest hlimit hfault =>
      apply not_isWellFormed_of_forall (by simp [width.carry_ne_nil])
      intro c after hbytes
      obtain ⟨hc, hleast⟩ := toNat_of_carry hlimit hbytes
      rcases hfault with hlt | hinvalid
      · omega
      · exact hinvalid (hc ▸ c.valid)
  | truncated hc hfront hback hrest =>
      apply not_isWellFormed_of_forall (by simp [hfront])
      exact fun d after => ne_of_truncated hc hfront hback hrest
  | behind s _ ih =>
      induction s with
      | nil => exact ih
      | cons c s ihs =>
          rw [encode_cons, List.append_assoc, isWellFormed_append_iff]
          exact ihs

end ColumnFormula.Text.Utf8
