import ColumnFormula.Proofs.Log.Tail

/-!
# Windows on a log

Whatever the bytes of a log are, a window that begins where a line begins has lines of its
own: a line feed is never part of another character and always ends a line, so neither
decoding nor splitting looks behind it. The end of a file that is read begins so, since what
is cut by its bound is dropped. Hence a narrower window has the last lines of a wider one, and
the last of its values. Reading fails only for lines that hold a number too long or values too
deep, which are not passed over as other damaged lines are.
-/

namespace ColumnFormula.Log

/-- Whether some bytes are the end of others from the beginning of a line on. -/
def IsLineSuffix (rest bytes : List UInt8) : Prop :=
  rest = bytes ∨ ∃ front, bytes = front ++ 10 :: rest

/-- Whether a line is read or passed over, where values may be nested so deeply. -/
def IsPassable (depth : Nat) (text : List Char) : Prop :=
  ∀ error, Json.ofChars text depth = .error error → error = .malformed

/-- The value of a line, if it holds one that is nested no deeper than values may be. -/
def value? (depth : Nat) (text : List Char) : Option Json :=
  (Json.ofChars text depth).toOption

/-! ## Lines behind a line feed -/

theorem lineTexts_append_newline (front : List UInt8) :
    ∃ texts, ∀ rest, lineTexts (front ++ 10 :: rest) = texts ++ lineTexts rest := by
  refine ⟨((Text.splitLines (Text.Utf8.decodeLossy front ++ ['\n'])).map Text.strip).filter
    (!·.isEmpty), fun rest => ?_⟩
  have htext : Text.Utf8.decodeLossy (front ++ 10 :: rest) =
      Text.Utf8.decodeLossy front ++ '\n' :: Text.Utf8.decodeLossy rest :=
    Text.Utf8.decodeLossy_append_ascii front (by decide) rest
  rw [lineTexts, htext, Text.splitLines_append_cons_newline, List.map_append, List.filter_append,
    lineTexts]

/-- The lines from the beginning of a line on are the last lines. -/
theorem IsLineSuffix.lineTexts_suffix {rest bytes : List UInt8} (h : IsLineSuffix rest bytes) :
    lineTexts rest <:+ lineTexts bytes := by
  obtain rfl | ⟨front, rfl⟩ := h
  · exact List.suffix_refl _
  · obtain ⟨texts, htexts⟩ := lineTexts_append_newline front
    exact ⟨texts, (htexts rest).symm⟩

/-! ## Where a window begins -/

/-- What stands behind the first line feed of a window begins a line, also of more bytes. -/
theorem afterFirstLine_isLineSuffix {window : List UInt8} (h : (10 : UInt8) ∈ window)
    (front : List UInt8) : IsLineSuffix (afterFirstLine window) (front ++ window) := by
  obtain ⟨dropped, rest, rfl, hdropped⟩ := List.eq_append_cons_of_mem h
  rw [afterFirstLine_append hdropped]
  exact .inr ⟨front ++ dropped, by rw [List.append_assoc]⟩

/-- A wider window drops its own first line, or the same part of a line. -/
theorem afterFirstLine_append_isLineSuffix {window : List UInt8} (h : (10 : UInt8) ∈ window)
    (front : List UInt8) :
    IsLineSuffix (afterFirstLine window) (afterFirstLine (front ++ window)) := by
  obtain ⟨dropped, rest, rfl, hdropped⟩ := List.eq_append_cons_of_mem h
  rw [afterFirstLine_append hdropped]
  by_cases hfront : (10 : UInt8) ∈ front
  · obtain ⟨cut, between, rfl, hcut⟩ := List.eq_append_cons_of_mem hfront
    rw [List.append_assoc, List.cons_append, afterFirstLine_append hcut]
    exact .inr ⟨between ++ dropped, by rw [List.append_assoc]⟩
  · rw [← List.append_assoc, afterFirstLine_append (by simp [hfront, hdropped])]
    exact .inl rfl

theorem newline_mem_drop {bytes : List UInt8} (hend : bytes.getLast? = some 10) {count : Nat}
    (hcount : count < bytes.length) : (10 : UInt8) ∈ bytes.drop count := by
  apply List.mem_of_getLast?
  rw [List.getLast?_drop, if_neg (by omega), hend]

/-- A narrower window begins where a line of a wider one begins. -/
theorem tail_isLineSuffix {bytes : List UInt8} (hend : bytes = [] ∨ bytes.getLast? = some 10)
    {near far : Int} (hnear : 1 ≤ near) (hfar : near ≤ far) :
    IsLineSuffix (tail near bytes) (tail far bytes) := by
  unfold tail
  split
  next hle =>
    rw [if_pos (by omega)]
    exact .inl rfl
  next hlong =>
    have hlast : bytes.getLast? = some 10 := by
      refine hend.resolve_left ?_
      rintro rfl
      simp at hlong
      omega
    have hmem : (10 : UInt8) ∈ bytes.drop (bytes.length - near.toNat) :=
      newline_mem_drop hlast (by omega)
    split
    next =>
      have hsuffix := afterFirstLine_isLineSuffix hmem (bytes.take (bytes.length - near.toNat))
      rwa [List.take_append_drop] at hsuffix
    next =>
      -- The wider window begins earlier by the difference of the sizes.
      have hcount : bytes.length - near.toNat =
          bytes.length - far.toNat + (far.toNat - near.toNat) := by omega
      have hsuffix := afterFirstLine_append_isLineSuffix hmem
        ((bytes.drop (bytes.length - far.toNat)).take (far.toNat - near.toNat))
      rw [hcount, ← List.drop_drop, List.take_append_drop] at hsuffix
      rwa [hcount, ← List.drop_drop]

/-- A window of no bytes shows nothing. -/
theorem tail_of_nonpos {tailBytes : Int} (h : tailBytes ≤ 0) (bytes : List UInt8) :
    tail tailBytes bytes = [] := by
  unfold tail
  split
  next hle => exact List.eq_nil_of_length_eq_zero (by omega)
  next =>
    have hcount : bytes.length - tailBytes.toNat = bytes.length := by omega
    rw [hcount, List.drop_length]
    rfl

/-- A narrower window has the last lines of a wider one. -/
theorem lineTexts_tail_suffix {bytes : List UInt8}
    (hend : bytes = [] ∨ bytes.getLast? = some 10) {near far : Int} (hfar : near ≤ far) :
    lineTexts (tail near bytes) <:+ lineTexts (tail far bytes) := by
  by_cases hnear : 1 ≤ near
  · exact (tail_isLineSuffix hend hnear hfar).lineTexts_suffix
  · rw [tail_of_nonpos (by omega)]
    exact List.nil_suffix

/-! ## Values -/

section Values

variable {depth : Nat} {texts : List (List Char)}

theorem valuesOf_of_isPassable (h : ∀ text ∈ texts, IsPassable depth text) :
    valuesOf depth texts = .ok (texts.filterMap (value? depth)) := by
  induction texts with
  | nil => rfl
  | cons text texts ih =>
      obtain ⟨htext, hrest⟩ := List.forall_mem_cons.mp h
      rw [valuesOf, ih hrest, List.filterMap_cons, value?]
      cases heq : Json.ofChars text depth with
      | ok value => rfl
      | error error =>
          obtain rfl := htext error heq
          rfl

theorem isPassable_of_valuesOf_eq_ok {values : List Json}
    (h : valuesOf depth texts = .ok values) : ∀ text ∈ texts, IsPassable depth text := by
  induction texts generalizing values with
  | nil => simp
  | cons text texts ih =>
      rw [valuesOf] at h
      rw [List.forall_mem_cons]
      cases heq : Json.ofChars text depth with
      | ok value =>
          rw [heq] at h
          obtain ⟨rest, hrest⟩ : ∃ rest, valuesOf depth texts = .ok rest := by
            cases hrest : valuesOf depth texts with
            | ok rest => exact ⟨rest, rfl⟩
            | error error =>
                rw [hrest] at h
                cases h
          refine ⟨fun error herror => ?_, ih hrest⟩
          rw [heq] at herror
          cases herror
      | error error =>
          rw [heq] at h
          cases error with
          | malformed =>
              refine ⟨fun error herror => ?_, ih h⟩
              rw [heq] at herror
              exact (Except.error.inj herror).symm
          | hugeInteger => cases h
          | tooDeep => cases h

theorem valuesOf_eq_ok_iff {full : List Json} :
    valuesOf depth texts = .ok full ↔
      (∀ text ∈ texts, IsPassable depth text) ∧ full = texts.filterMap (value? depth) := by
  constructor
  · intro h
    have hpassable := isPassable_of_valuesOf_eq_ok h
    rw [valuesOf_of_isPassable hpassable] at h
    exact ⟨hpassable, (Except.ok.inj h).symm⟩
  · rintro ⟨hpassable, rfl⟩
    exact valuesOf_of_isPassable hpassable

end Values

/-! ## Arrays that are too deep -/

theorem readValue_replicate (fuel depth count : Nat) :
    Json.readValue (fuel + 2 * depth + 1) depth (List.replicate (count + depth + 1) '[') =
      .error .tooDeep := by
  induction depth with
  | zero => rw [List.replicate_succ, Json.readValue]
  | succ depth ih =>
      have hfuel : fuel + 2 * (depth + 1) = fuel + 2 * depth + 1 + 1 := by omega
      rw [hfuel, List.replicate_succ, ← Nat.add_assoc, Json.readValue]
      change Except.map _ (Json.readItems (fuel + 2 * depth + 1 + 1) depth
        (List.replicate (count + depth + 1) '[')) = _
      rw [Json.readItems, ih]
      rfl

/-- A text of more opening brackets than arrays may stand in one another. -/
theorem ofChars_replicate {count depth : Nat} (h : depth < count) :
    Json.ofChars (List.replicate count '[') depth = .error .tooDeep := by
  obtain ⟨more, rfl⟩ : ∃ more, count = more + depth + 1 := ⟨count - depth - 1, by omega⟩
  have hfuel : 2 * (more + depth + 1) + 2 = 2 * more + 3 + 2 * depth + 1 := by omega
  have hskip : Json.skipSpace (List.replicate (more + depth + 1) '[') =
      List.replicate (more + depth + 1) '[' := rfl
  rw [Json.ofChars, List.length_replicate, hfuel, hskip, readValue_replicate]
  rfl

section Reading

variable {folder path : Path} {limits : Limits} {tree : FileTree} {bytes : List UInt8}

theorem readFile_file (hfile : tree.find path = .ok (some (.file bytes))) (tailBytes : Int) :
    readFile ⟨folder, tailBytes, limits⟩ path tree = values limits.depth tailBytes bytes := by
  rw [readFile, hfile]

/-- The end of a file is read if it has a position and no line stops the reading. -/
theorem readFile_eq_ok_iff (hfile : tree.find path = .ok (some (.file bytes))) {tailBytes : Int}
    {read : List Json} :
    readFile ⟨folder, tailBytes, limits⟩ path tree = .ok read ↔
      (bytes.length - tailBytes ≤ maxPosition ∧
          ∀ text ∈ lineTexts (tail tailBytes bytes), IsPassable limits.depth text) ∧
        read = (lineTexts (tail tailBytes bytes)).filterMap (value? limits.depth) := by
  rw [readFile_file hfile, values]
  split
  next hfar =>
    exact ⟨fun h => (by cases h), fun h => absurd h.1.1 (by omega)⟩
  next hnear =>
    rw [valuesOf_eq_ok_iff]
    exact ⟨fun h => ⟨⟨by omega, h.1⟩, h.2⟩, fun h => ⟨h.1.2, h.2⟩⟩

/-- Of a file that is empty or ends with a line feed, a narrower window has the last lines of a
wider one, which is all of the file if it is wide enough. So what is read of the narrower one are
the last of the values that are read of the wider one, whenever both are read; and both are read
unless a line of the wider one holds a number too long or values too deep. -/
theorem readFile_suffix {near far : Int} (hfile : tree.find path = .ok (some (.file bytes)))
    (hend : bytes = [] ∨ bytes.getLast? = some 10) (hnear : 1 ≤ near) (hfar : near ≤ far) :
    lineTexts (tail near bytes) <:+ lineTexts (tail far bytes) ∧
      (∀ newer values, readFile ⟨folder, near, limits⟩ path tree = .ok newer →
        readFile ⟨folder, far, limits⟩ path tree = .ok values → newer <:+ values) ∧
      ((∃ newer values, readFile ⟨folder, near, limits⟩ path tree = .ok newer ∧
          readFile ⟨folder, far, limits⟩ path tree = .ok values) ↔
        bytes.length - near ≤ maxPosition ∧
          ∀ text ∈ lineTexts (tail far bytes), IsPassable limits.depth text) := by
  have hlines := (tail_isLineSuffix hend hnear hfar).lineTexts_suffix
  refine ⟨hlines, ?_, ?_⟩
  · intro newer values hnewer hvalues
    rw [((readFile_eq_ok_iff hfile).mp hnewer).2, ((readFile_eq_ok_iff hfile).mp hvalues).2]
    exact hlines.filterMap (value? limits.depth)
  · simp only [readFile_eq_ok_iff hfile]
    constructor
    · rintro ⟨newer, values, ⟨⟨hposition, -⟩, -⟩, ⟨-, hpassable⟩, -⟩
      exact ⟨hposition, hpassable⟩
    · rintro ⟨hposition, hpassable⟩
      exact ⟨_, _, ⟨⟨hposition, fun text htext => hpassable text (hlines.mem htext)⟩, rfl⟩,
        ⟨by omega, hpassable⟩, rfl⟩

/-- A window that begins within a character, on a file with bytes that encode no text. -/
theorem readFile_suffix_withinCharacter :
    let bytes : List UInt8 := [0x22, 0xC3, 0xA9, 0x22, 10, 0xFF, 10, 0x37, 10]
    let tree : FileTree := ⟨[(["log"], .file bytes)]⟩
    bytes.getLast? = some 10 ∧
      readFile ⟨[], 7, .own⟩ ["log"] tree = .ok [.int 7] ∧
      readFile ⟨[], 9, .own⟩ ["log"] tree = .ok [.str "é", .int 7] ∧
      [Json.int 7] <:+ [.str "é", .int 7] := by
  intro bytes tree
  have hnewer : readFile ⟨[], 7, .own⟩ ["log"] tree = .ok [.int 7] := by rfl
  have hvalues : readFile ⟨[], 9, .own⟩ ["log"] tree = .ok [.str "é", .int 7] := by rfl
  exact ⟨rfl, hnewer, hvalues,
    (readFile_suffix rfl (.inr rfl) (by decide) (by decide)).2.1 _ _ hnewer hvalues⟩

/-- A line of a damaged file that opens more arrays than are read is not passed over: a window
that shows it is not read, a window behind it is. -/
theorem readFile_deepLine :
    let bytes : List UInt8 := List.replicate 1000 0x5B ++ [10, 0x5B, 0x31, 0x5D, 10]
    let tree : FileTree := ⟨[(["log"], .file bytes)]⟩
    bytes.getLast? = some 10 ∧
      readFile ⟨[], 6, .own⟩ ["log"] tree = .ok [.arr [.int 1]] ∧
      readFile ⟨[], defaultTailBytes, .own⟩ ["log"] tree = .error .tooDeep ∧
      ¬ ∃ newer values, readFile ⟨[], 6, .own⟩ ["log"] tree = .ok newer ∧
        readFile ⟨[], defaultTailBytes, .own⟩ ["log"] tree = .ok values ∧ newer <:+ values := by
  intro bytes tree
  have hnear : tail 6 bytes = [0x5B, 0x31, 0x5D, 10] := by decide +kernel
  have hfar : lineTexts (tail defaultTailBytes bytes) =
      [List.replicate 1000 '[', ['[', '1', ']']] := by decide +kernel
  have hposition : ¬ maxPosition < bytes.length - 6 := by decide +kernel
  have hnewer : readFile ⟨[], 6, .own⟩ ["log"] tree = .ok [.arr [.int 1]] := by
    rw [readFile_file rfl, values, if_neg hposition, hnear]
    rfl
  have hdeep : readFile ⟨[], defaultTailBytes, .own⟩ ["log"] tree = .error .tooDeep := by
    rw [readFile_file rfl, values, if_neg (by decide +kernel), hfar, valuesOf,
      ofChars_replicate (by decide)]
  refine ⟨by decide +kernel, hnewer, hdeep, ?_⟩
  rintro ⟨newer, values, -, hvalues, -⟩
  rw [hdeep] at hvalues
  cases hvalues

end Reading

end ColumnFormula.Log
