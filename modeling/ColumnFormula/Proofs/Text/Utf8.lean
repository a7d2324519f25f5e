import Mathlib.Tactic.ByContra
import ColumnFormula.Text.Utf8

/-!
# Text read back from its bytes

Each character is decoded from the one to four bytes that encode it, whatever bytes follow.
So decoding, strict or lossy, undoes encoding, and a line feed stands in the bytes only where
one stands in the text. Strict decoding accepts nothing else: bytes that are decoded as a text
are the encoding of this text. Of any bytes, what stands behind a line feed is decoded on its own.
-/

namespace ColumnFormula.Text.Utf8

/-! ## Bytes -/

theorem toNat_ofNat_of_lt {n : Nat} (h : n < 256) : (UInt8.ofNat n).toNat = n := by
  rw [UInt8.toNat_ofNat']
  exact Nat.mod_eq_of_lt h

/-- A byte that continues a character adds six bits to its value. -/
theorem pieces_within {owed value n : Nat} {low high : UInt8} (hn : n < 256)
    (hlow : low.toNat ≤ n) (hhigh : n ≤ high.toNat) (bytes : List UInt8) :
    pieces (.within owed low high value) (UInt8.ofNat n :: bytes) =
      if owed ≤ 1 then some (Char.ofNat (value * 64 + (n - 0x80))) :: pieces .start bytes
      else pieces (.within (owed - 1) 0x80 0xBF (value * 64 + (n - 0x80))) bytes := by
  have hbyte := toNat_ofNat_of_lt hn
  have hrange : low ≤ UInt8.ofNat n ∧ UInt8.ofNat n ≤ high := by
    rw [UInt8.le_iff_toNat_le, UInt8.le_iff_toNat_le, hbyte]
    exact ⟨hlow, hhigh⟩
  rw [pieces, step, if_pos hrange]
  simp only [hbyte]
  split <;> rfl

theorem pieces_start {n : Nat} {state : State} (h : lead (UInt8.ofNat n) = ([], state))
    (bytes : List UInt8) : pieces .start (UInt8.ofNat n :: bytes) = pieces state bytes := by
  rw [pieces, step, h]
  rfl

/-! ## First bytes -/

/-- What a byte that begins a character says of it; all other bytes begin none. -/
theorem lead_ofNat : ∀ n < 256, lead (UInt8.ofNat n) =
    if n < 0x80 then ([some (Char.ofNat n)], .start)
    else if 0xC2 ≤ n ∧ n < 0xE0 then ([], .within 1 0x80 0xBF (n - 0xC0))
    else if 0xE0 ≤ n ∧ n < 0xF0 then
      ([], .within 2 (if n = 0xE0 then 0xA0 else 0x80) (if n = 0xED then 0x9F else 0xBF) (n - 0xE0))
    else if 0xF0 ≤ n ∧ n < 0xF5 then
      ([], .within 3 (if n = 0xF0 then 0x90 else 0x80) (if n = 0xF4 then 0x8F else 0xBF) (n - 0xF0))
    else ([none], .start) := by
  decide +kernel

theorem lead_one {n : Nat} (h : n < 0x80) :
    lead (UInt8.ofNat n) = ([some (Char.ofNat n)], .start) := by
  rw [lead_ofNat n (by omega), if_pos h]

theorem lead_two {n : Nat} (hlow : 2 ≤ n) (hhigh : n < 0x20) :
    lead (UInt8.ofNat (n + 0xC0)) = ([], .within 1 0x80 0xBF n) := by
  rw [lead_ofNat _ (by omega), if_neg (by omega), if_pos (by omega), Nat.add_sub_cancel]

theorem lead_three : ∀ n < 0x10, lead (UInt8.ofNat (n + 0xE0)) =
    ([], .within 2 (if n = 0 then 0xA0 else 0x80) (if n = 0xD then 0x9F else 0xBF) n) := by
  decide

theorem lead_four : ∀ n < 5, lead (UInt8.ofNat (n + 0xF0)) =
    ([], .within 3 (if n = 0 then 0x90 else 0x80) (if n = 4 then 0x8F else 0xBF) n) := by
  decide

/-! ## Characters -/

theorem utf8EncodeChar_eq (c : Char) : String.utf8EncodeChar c =
    if c.toNat ≤ 0x7F then [UInt8.ofNat c.toNat]
    else if c.toNat ≤ 0x7FF then
      [UInt8.ofNat (c.toNat / 64 % 0x20 + 0xC0), UInt8.ofNat (c.toNat % 0x40 + 0x80)]
    else if c.toNat ≤ 0xFFFF then
      [UInt8.ofNat (c.toNat / 4096 % 0x10 + 0xE0), UInt8.ofNat (c.toNat / 64 % 0x40 + 0x80),
        UInt8.ofNat (c.toNat % 0x40 + 0x80)]
    else
      [UInt8.ofNat (c.toNat / 262144 % 0x08 + 0xF0), UInt8.ofNat (c.toNat / 4096 % 0x40 + 0x80),
        UInt8.ofNat (c.toNat / 64 % 0x40 + 0x80), UInt8.ofNat (c.toNat % 0x40 + 0x80)] :=
  rfl

/-- The bytes of a character are decoded as the character. -/
theorem pieces_utf8EncodeChar (c : Char) (bytes : List UInt8) :
    pieces .start (String.utf8EncodeChar c ++ bytes) = some c :: pieces .start bytes := by
  have hvalid : c.toNat < 0xD800 ∨ (0xDFFF < c.toNat ∧ c.toNat < 0x110000) := c.valid
  rw [utf8EncodeChar_eq]
  conv => rhs; rw [← Char.ofNat_toNat c]
  generalize c.toNat = n at hvalid
  split
  next hone =>
    rw [List.singleton_append, pieces, step, lead_one (by omega)]
    rfl
  split
  next _ htwo =>
    have hvalue : n / 64 % 0x20 * 64 + (n % 0x40 + 0x80 - 0x80) = n := by omega
    simp only [List.cons_append, List.nil_append]
    rw [pieces_start (lead_two (by omega) (by omega)),
      pieces_within (by omega) (by simp) (by simp; omega), if_pos (by omega), hvalue]
  split
  next _ _ hthree =>
    have hvalue : (n / 4096 % 0x10 * 64 + (n / 64 % 0x40 + 0x80 - 0x80)) * 64 +
        (n % 0x40 + 0x80 - 0x80) = n := by omega
    simp only [List.cons_append, List.nil_append]
    rw [pieces_start (lead_three _ (by omega)), pieces_within (by omega), if_neg (by omega),
      pieces_within (by omega) (by simp) (by simp; omega), if_pos (by omega), hvalue]
    -- After the first byte of three, the bounds for the second keep out all but characters.
    · split <;> simp; omega
    · split <;> simp <;> omega
  next =>
    have hvalue : ((n / 262144 % 0x08 * 64 + (n / 4096 % 0x40 + 0x80 - 0x80)) * 64 +
        (n / 64 % 0x40 + 0x80 - 0x80)) * 64 + (n % 0x40 + 0x80 - 0x80) = n := by omega
    simp only [List.cons_append, List.nil_append]
    rw [pieces_start (lead_four _ (by omega)), pieces_within (by omega), if_neg (by omega),
      pieces_within (by omega) (by simp) (by simp; omega), if_neg (by omega),
      pieces_within (by omega) (by simp) (by simp; omega), if_pos (by omega), hvalue]
    · split <;> simp; omega
    · split <;> simp <;> omega

/-! ## Texts -/

theorem pieces_encode (s : List Char) : pieces .start (encode s) = s.map some := by
  induction s with
  | nil => rfl
  | cons c s ih => rw [encode_cons, pieces_utf8EncodeChar, ih, List.map_cons]

theorem mapM_id_eq_some_iff {pieces : List (Option Char)} {s : List Char} :
    pieces.mapM id = some s ↔ pieces = s.map some := by
  induction pieces generalizing s with
  | nil => cases s <;> simp
  | cons piece pieces ih => cases s <;> simp [ih, Option.bind_eq_some_iff]

theorem decode?_encode (s : List Char) : decode? (encode s) = some s := by
  rw [decode?, mapM_id_eq_some_iff, pieces_encode]

theorem decodeLossy_encode (s : List Char) : decodeLossy (encode s) = s := by
  rw [decodeLossy, pieces_encode, List.map_map]
  exact List.map_id s

/-- A line feed is among the bytes of no other character. -/
theorem ne_ten_of_mem_utf8EncodeChar {c : Char} (hc : c ≠ '\n') {b : UInt8}
    (hb : b ∈ String.utf8EncodeChar c) : b ≠ 10 := by
  have hne : c.toNat ≠ 10 := fun heq => hc (Char.toNat_inj.mp heq)
  -- All bytes of a character but those of ASCII are 128 or more.
  have hbyte : ∀ n < 256, n ≠ 10 → UInt8.ofNat n ≠ 10 := by
    intro n hn hten heq
    have htoNat := congrArg UInt8.toNat heq
    rw [toNat_ofNat_of_lt hn] at htoNat
    exact hten htoNat
  rw [utf8EncodeChar_eq] at hb
  split at hb
  · rw [List.mem_singleton.mp hb]
    exact hbyte _ (by omega) hne
  split at hb
  · simp only [List.mem_cons, List.not_mem_nil, or_false] at hb
    rcases hb with rfl | rfl <;> exact hbyte _ (by omega) (by omega)
  split at hb
  · simp only [List.mem_cons, List.not_mem_nil, or_false] at hb
    rcases hb with rfl | rfl | rfl <;> exact hbyte _ (by omega) (by omega)
  · simp only [List.mem_cons, List.not_mem_nil, or_false] at hb
    rcases hb with rfl | rfl | rfl | rfl <;> exact hbyte _ (by omega) (by omega)

theorem ten_not_mem_encode {s : List Char} (hs : '\n' ∉ s) : (10 : UInt8) ∉ encode s := by
  intro hmem
  obtain ⟨c, hc, hb⟩ := List.mem_flatMap.mp hmem
  have hne : c ≠ '\n' := fun heq => hs (heq ▸ hc)
  exact ne_ten_of_mem_utf8EncodeChar hne hb rfl

/-- A text that does not begin with a byte order mark is left alone. -/
theorem dropByteOrderMark_of_head? {s : List Char} (h : s.head? ≠ some '\uFEFF') :
    dropByteOrderMark s = s := by
  unfold dropByteOrderMark
  split
  next => exact absurd rfl h
  next => rfl

/-- A text has as many bytes as its encoding. -/
theorem length_encode (s : String) : (encode s.toList).length = s.utf8ByteSize := by
  conv => rhs; rw [← String.ofList_toList (s := s)]
  rw [← String.size_toByteArray, String.toByteArray_ofList, List.utf8Encode]
  simp [encode]

/-- Each character of ASCII is one byte. -/
theorem length_encode_ascii {s : List Char} (hs : ∀ c ∈ s, c.toNat ≤ 0x7F) :
    (encode s).length = s.length := by
  induction s with
  | nil => rfl
  | cons c s ih =>
      rw [List.forall_mem_cons] at hs
      rw [encode_cons, List.length_append, ih hs.2, utf8EncodeChar_eq, if_pos hs.1]
      simp [Nat.add_comm]

/-! ## Bytes that are decoded -/

section Decoded

variable {bytes : List UInt8} {c : Char} {rest : List (Option Char)}

theorem exists_ofNat (b : UInt8) : ∃ n < 256, b = UInt8.ofNat n :=
  ⟨b.toNat, b.toNat_lt, UInt8.ofNat_toNat.symm⟩

/-- A character that is open is continued by a byte within the bounds. -/
theorem exists_of_pieces_within {owed value : Nat} {low high : UInt8}
    (h : pieces (.within owed low high value) bytes = some c :: rest) :
    ∃ n after, n < 256 ∧ (low.toNat ≤ n ∧ n ≤ high.toNat) ∧ bytes = UInt8.ofNat n :: after ∧
      (if owed ≤ 1 then some (Char.ofNat (value * 64 + (n - 0x80))) :: pieces .start after
        else pieces (.within (owed - 1) 0x80 0xBF (value * 64 + (n - 0x80))) after) =
        some c :: rest := by
  cases bytes with
  | nil => cases h
  | cons b after =>
      obtain ⟨n, hn, rfl⟩ := exists_ofNat b
      by_cases hrange : low.toNat ≤ n ∧ n ≤ high.toNat
      · rw [pieces_within hn hrange.1 hrange.2] at h
        exact ⟨n, after, hn, hrange, rfl, h⟩
      · have hbyte : ¬ (low ≤ UInt8.ofNat n ∧ UInt8.ofNat n ≤ high) := by
          rwa [UInt8.le_iff_toNat_le, UInt8.le_iff_toNat_le, toNat_ofNat_of_lt hn]
        rw [pieces, step, if_neg hbyte] at h
        cases h

/-- The last byte of a character. -/
theorem exists_of_pieces_last {value : Nat} {low high : UInt8}
    (h : pieces (.within 1 low high value) bytes = some c :: rest) :
    ∃ n after, (low.toNat ≤ n ∧ n ≤ high.toNat) ∧ bytes = UInt8.ofNat n :: after ∧
      Char.ofNat (value * 64 + (n - 0x80)) = c ∧ pieces .start after = rest := by
  obtain ⟨n, after, -, hrange, hbytes, hpieces⟩ := exists_of_pieces_within h
  rw [if_pos (Nat.le_refl 1)] at hpieces
  obtain ⟨hc, hrest⟩ := List.cons.inj hpieces
  exact ⟨n, after, hrange, hbytes, Option.some.inj hc, hrest⟩

theorem toNat_ofNat_of_isValidChar {n : Nat} (h : n.isValidChar) : (Char.ofNat n).toNat = n := by
  rw [Char.ofNat, dif_pos h]
  rfl

/-- A character that is decoded first stands in front with its bytes. -/
theorem exists_of_pieces_start (h : pieces .start bytes = some c :: rest) :
    ∃ after, bytes = String.utf8EncodeChar c ++ after ∧ pieces .start after = rest := by
  cases bytes with
  | nil => cases h
  | cons b bytes =>
      obtain ⟨n, hn, rfl⟩ := exists_ofNat b
      rw [pieces, step, lead_ofNat n hn] at h
      split at h
      next hone =>
        obtain ⟨hc, hrest⟩ := List.cons.inj h
        obtain rfl := Option.some.inj hc
        refine ⟨bytes, ?_, hrest⟩
        rw [utf8EncodeChar_eq, toNat_ofNat_of_isValidChar (.inl (by omega)), if_pos (by omega)]
        rfl
      split at h
      next htwo =>
        obtain ⟨m, after, hm, rfl, rfl, hrest⟩ := exists_of_pieces_last h
        simp only [UInt8.reduceToNat] at hm
        have hfirst : ((n - 0xC0) * 64 + (m - 0x80)) / 64 % 0x20 + 0xC0 = n := by omega
        have hsecond : ((n - 0xC0) * 64 + (m - 0x80)) % 0x40 + 0x80 = m := by omega
        refine ⟨after, ?_, hrest⟩
        rw [utf8EncodeChar_eq, toNat_ofNat_of_isValidChar (.inl (by omega)), if_neg (by omega),
          if_pos (by omega), hfirst, hsecond]
        rfl
      split at h
      next hthree =>
        obtain ⟨m, after, -, hm, rfl, hlater⟩ := exists_of_pieces_within h
        obtain ⟨k, after, hk, rfl, rfl, hrest⟩ := exists_of_pieces_last hlater
        simp only [apply_ite UInt8.toNat, UInt8.reduceToNat] at hm hk
        -- The bounds for the second byte keep out surrogates and what two bytes can say.
        have hbounds : (n = 0xE0 → 0xA0 ≤ m) ∧ (n = 0xED → m ≤ 0x9F) ∧ 0x80 ≤ m ∧ m ≤ 0xBF := by
          split at hm <;> split at hm <;> omega
        refine ⟨after, ?_, hrest⟩
        generalize hv : ((n - 0xE0) * 64 + (m - 0x80)) * 64 + (k - 0x80) = v
        have hvalid : v < 0xD800 ∨ (0xDFFF < v ∧ v < 0x110000) := by omega
        have hfirst : v / 4096 % 0x10 + 0xE0 = n := by omega
        have hsecond : v / 64 % 0x40 + 0x80 = m := by omega
        have hthird : v % 0x40 + 0x80 = k := by omega
        rw [utf8EncodeChar_eq, toNat_ofNat_of_isValidChar hvalid, if_neg (by omega),
          if_neg (by omega), if_pos (by omega), hfirst, hsecond, hthird]
        rfl
      split at h
      next hfour =>
        obtain ⟨m, after, -, hm, rfl, hlater⟩ := exists_of_pieces_within h
        obtain ⟨k, after, -, hk, rfl, hlast⟩ := exists_of_pieces_within hlater
        obtain ⟨j, after, hj, rfl, rfl, hrest⟩ := exists_of_pieces_last hlast
        simp only [apply_ite UInt8.toNat, UInt8.reduceToNat] at hm hk hj
        -- Here they keep out what three bytes can say and values beyond all characters.
        have hbounds : (n = 0xF0 → 0x90 ≤ m) ∧ (n = 0xF4 → m ≤ 0x8F) ∧ 0x80 ≤ m ∧ m ≤ 0xBF := by
          split at hm <;> split at hm <;> omega
        refine ⟨after, ?_, hrest⟩
        generalize hv : (((n - 0xF0) * 64 + (m - 0x80)) * 64 + (k - 0x80)) * 64 + (j - 0x80) = v
        have hvalid : v < 0xD800 ∨ (0xDFFF < v ∧ v < 0x110000) := by omega
        have hfirst : v / 262144 % 0x08 + 0xF0 = n := by omega
        have hsecond : v / 4096 % 0x40 + 0x80 = m := by omega
        have hthird : v / 64 % 0x40 + 0x80 = k := by omega
        have hfourth : v % 0x40 + 0x80 = j := by omega
        rw [utf8EncodeChar_eq, toNat_ofNat_of_isValidChar hvalid, if_neg (by omega),
          if_neg (by omega), if_neg (by omega), hfirst, hsecond, hthird, hfourth]
        rfl
      next => cases h

theorem step_ne_nil {state : State} {b : UInt8} (h : (step state b).2 = .start) :
    (step state b).1 ≠ [] := by
  have hlead : (lead b).2 = .start → (lead b).1 ≠ [] := by
    unfold lead
    repeat' split
    all_goals simp
  cases state with
  | start => exact hlead h
  | within owed low high value =>
      rw [step] at h ⊢
      by_cases hrange : low ≤ b ∧ b ≤ high
      · by_cases howed : owed ≤ 1
        · simp [hrange, howed]
        · simp [hrange, howed] at h
      · simp [hrange]

/-- No bytes are passed over: each is part of a character or of an ill-formed piece. -/
theorem pieces_ne_nil {state : State} (h : state ≠ .start ∨ bytes ≠ []) :
    pieces state bytes ≠ [] := by
  induction bytes generalizing state with
  | nil =>
      cases state with
      | start => simp at h
      | within owed low high value => exact List.cons_ne_nil _ _
  | cons b bytes ih =>
      rw [pieces, Ne, List.append_eq_nil_iff]
      rintro ⟨hstep, hrest⟩
      by_cases hstart : (step state b).2 = .start
      · exact step_ne_nil hstart hstep
      · exact ih (.inl hstart) hrest

/-- What is decoded without a fault is encoded by the bytes. -/
theorem encode_of_pieces {s : List Char} (h : pieces .start bytes = s.map some) :
    encode s = bytes := by
  induction s generalizing bytes with
  | nil =>
      by_contra hne
      exact pieces_ne_nil (.inr (Ne.symm hne)) h
  | cons c s ih =>
      obtain ⟨after, rfl, hrest⟩ := exists_of_pieces_start h
      rw [encode_cons, ih hrest]

/-- Strict decoding is the inverse of encoding: bytes are decoded as a text if and only if they
are its encoding. -/
theorem decode?_eq_some_iff {s : List Char} : decode? bytes = some s ↔ encode s = bytes := by
  constructor
  · intro h
    exact encode_of_pieces (mapM_id_eq_some_iff.mp h)
  · rintro rfl
    exact decode?_encode s

end Decoded

/-! ## Behind other bytes -/

/-- Whether a state owes only bytes that are not of ASCII. -/
def State.IsProper : State → Prop
  | .start => True
  | .within _ low _ _ => 0x80 ≤ low

theorem isProper_lead (b : UInt8) : (lead b).2.IsProper := by
  unfold lead
  repeat' split
  all_goals simp [State.IsProper]

theorem isProper_step (state : State) (b : UInt8) : (step state b).2.IsProper := by
  cases state with
  | start => exact isProper_lead b
  | within owed low high value =>
      rw [step]
      split
      next =>
        simp only
        split <;> simp [State.IsProper]
      next => exact isProper_lead b

/-- A byte of ASCII is always a character of its own: it closes a piece that is open. -/
theorem step_ascii {state : State} (h : state.IsProper) {b : UInt8} (hb : b < 0x80) :
    step state b = (pieces state [] ++ (lead b).1, (lead b).2) := by
  cases state with
  | start => rfl
  | within owed low high value =>
      have hlow : ¬ (low ≤ b ∧ b ≤ high) := by
        rintro ⟨hle, -⟩
        exact UInt8.not_lt.mpr (UInt8.le_trans h hle) hb
      rw [step, if_neg hlow]
      rfl

/-- What begins with a byte of ASCII is decoded on its own, whatever stands in front of it. -/
theorem pieces_append_ascii (bytes : List UInt8) {state : State} (h : state.IsProper) {b : UInt8}
    (hb : b < 0x80) (rest : List UInt8) :
    pieces state (bytes ++ b :: rest) = pieces state bytes ++ pieces .start (b :: rest) := by
  induction bytes generalizing state with
  | nil =>
      rw [List.nil_append, pieces, step_ascii h hb, List.append_assoc, pieces]
      rfl
  | cons d bytes ih =>
      have hcons : ∀ bytes, pieces state (d :: bytes) =
          (step state d).1 ++ pieces (step state d).2 bytes := by
        intro bytes
        rw [pieces]
      rw [List.cons_append, hcons, hcons, ih (isProper_step state d), List.append_assoc]

theorem decodeLossy_append_ascii (bytes : List UInt8) {b : UInt8} (hb : b < 0x80)
    (rest : List UInt8) :
    decodeLossy (bytes ++ b :: rest) = decodeLossy bytes ++ decodeLossy (b :: rest) := by
  rw [decodeLossy, pieces_append_ascii bytes (show State.start.IsProper from trivial) hb,
    List.map_append]
  rfl

/-- A text that begins with a character of ASCII is decoded as itself behind any bytes. -/
theorem decodeLossy_append_encode (bytes : List UInt8) {c : Char} (hc : c.toNat ≤ 0x7F)
    (s : List Char) : decodeLossy (bytes ++ encode (c :: s)) = decodeLossy bytes ++ c :: s := by
  have hcode : c.toNat % 256 < 128 := by omega
  have hascii : UInt8.ofNat c.toNat < 0x80 := by
    rw [UInt8.lt_iff_toNat_lt, UInt8.toNat_ofNat']
    exact hcode
  have hbytes : encode (c :: s) = UInt8.ofNat c.toNat :: encode s := by
    rw [encode_cons, utf8EncodeChar_eq, if_pos hc, List.singleton_append]
  rw [hbytes, decodeLossy_append_ascii bytes hascii, ← hbytes, decodeLossy_encode]

end ColumnFormula.Text.Utf8
