import ColumnFormula.Proofs.Log.Windows

/-!
# The limit of a query

A query gives the newest of the events that it finds. A limit of zero or more bounds how many
these are, whatever the log holds, and no query gives more than the greatest limit then. A limit
below zero bounds nothing: it leaves out that many of the oldest events and gives all others.
-/

namespace ColumnFormula.Log

variable {log : Log} {tree : FileTree} {bytes : List UInt8} {values : List Json} {limit : Int}

/-! ## Up to the limit -/

theorem takeLimit_of_neg (h : limit < 0) (values : List Json) :
    takeLimit limit values = values.take (values.length - limit.natAbs) := by
  have hmax : 0 ≤ maxLimit := by decide
  have hmin : min limit maxLimit = limit := by omega
  rw [takeLimit, hmin, if_neg (by omega), show (-limit).toNat = limit.natAbs by omega]

theorem isPrefix_takeLimit (limit : Int) (values : List Json) : takeLimit limit values <+: values := by
  rcases Int.lt_or_le limit 0 with hneg | hnonneg
  · rw [takeLimit_of_neg hneg]
    exact List.take_prefix _ _
  · rw [takeLimit_of_nonneg hnonneg]
    exact List.take_prefix _ _

theorem length_takeLimit (limit : Int) (values : List Json) :
    (takeLimit limit values).length =
      if 0 ≤ limit then min (min limit maxLimit).toNat values.length
      else values.length - limit.natAbs := by
  split
  next hnonneg => rw [takeLimit_of_nonneg hnonneg, List.length_take]
  next hneg =>
    rw [takeLimit_of_neg (by omega), List.length_take]
    omega

/-- The limit bounds how many values are given, unless it is below zero and leaves some. -/
theorem length_takeLimit_le_iff :
    (takeLimit limit values).length ≤ max 0 (min limit maxLimit) ↔
      0 ≤ limit ∨ values.length ≤ limit.natAbs := by
  have hmax : 0 ≤ maxLimit := by decide
  rw [length_takeLimit]
  split <;> omega

/-- All values are given if the limit allows for so many. -/
theorem takeLimit_eq_self (h : values.length ≤ max 0 (min limit maxLimit)) :
    takeLimit limit values = values := by
  apply (isPrefix_takeLimit limit values).eq_of_length
  rw [length_takeLimit]
  split <;> omega

/-! ## Queries -/

/-- A query of a log in which only objects are found gives the newest of those that it looks for,
unless a line stops the reading. These are all of them if the limit allows for so many; and there
are no more of them than the limit allows for, exactly if the limit is not below zero or leaves
out everything: a limit below zero leaves out that many of the oldest. -/
theorem readGlobal_limited (hfile : tree.find (globalFile log.folder) = .ok (some (.file bytes)))
    (hobjects : ∀ text ∈ lineTexts (tail log.tailBytes bytes),
      ∀ value ∈ value? log.limits.depth text, value.isObj = true)
    (level kind : Option String) (limit : Int) :
    ((∃ events, log.readGlobal level kind limit tree = .ok events) ↔
      bytes.length - log.tailBytes ≤ maxPosition ∧
        ∀ text ∈ lineTexts (tail log.tailBytes bytes), IsPassable log.limits.depth text) ∧
    ∀ events, log.readGlobal level kind limit tree = .ok events →
      ∃ full, log.readFile (globalFile log.folder) tree = .ok full ∧
        let found := (full.filter (IsSelected level kind ·)).reverse
        events <+: found ∧
        (found.length ≤ max 0 (min limit 2000) → events = found) ∧
        (events.length ≤ max 0 (min limit 2000) ↔ 0 ≤ limit ∨ found.length ≤ limit.natAbs) ∧
        (limit < 0 → events.length = found.length - limit.natAbs) := by
  -- If the file is read, nothing else can fail.
  have hquery : ∀ full, log.readFile (globalFile log.folder) tree = .ok full →
      log.readGlobal level kind limit tree =
        .ok (takeLimit limit (full.filter (IsSelected level kind ·)).reverse) := by
    intro full hread
    apply readGlobal_of_objects hread
    intro value hvalue
    obtain ⟨-, rfl⟩ := (readFile_eq_ok_iff hfile).mp hread
    obtain ⟨text, htext, hvalue⟩ := List.mem_filterMap.mp hvalue
    exact hobjects text htext value hvalue
  refine ⟨⟨?_, fun h => ⟨_, hquery _ ((readFile_eq_ok_iff hfile).mpr ⟨h, rfl⟩)⟩⟩, ?_⟩
  · rintro ⟨events, h⟩
    obtain ⟨full, hread⟩ := exists_readFile_of_readGlobal h
    exact ((readFile_eq_ok_iff hfile).mp hread).1
  · intro events h
    obtain ⟨full, hread⟩ := exists_readFile_of_readGlobal h
    obtain rfl := Except.ok.inj ((hquery full hread).symm.trans h)
    refine ⟨full, hread, isPrefix_takeLimit _ _, takeLimit_eq_self, length_takeLimit_le_iff, ?_⟩
    intro hneg
    rw [length_takeLimit, if_neg (by omega)]

/-- Of two objects and a line that is passed over, a limit of minus one leaves out one. -/
theorem readGlobal_limited_belowZero :
    let bytes := Text.Utf8.encode "\x7b\x7d\n?\n\x7b\x7d\n".toList
    let tree : FileTree := ⟨[(globalFile [], .file bytes)]⟩
    let log : Log := ⟨[], defaultTailBytes, .own⟩
    (tree.find (globalFile log.folder) = .ok (some (.file bytes)) ∧
      ∀ text ∈ lineTexts (tail log.tailBytes bytes),
        ∀ value ∈ value? log.limits.depth text, value.isObj = true) ∧
    log.readGlobal none none (-1) tree = .ok [.obj []] ∧
    ∃ full, log.readFile (globalFile log.folder) tree = .ok full ∧
      let found := (full.filter (IsSelected none none ·)).reverse
      [.obj []] <+: found ∧ 1 = found.length - 1 := by
  intro bytes tree log
  have hobjects : ∀ text ∈ lineTexts (tail log.tailBytes bytes),
      ∀ value ∈ value? log.limits.depth text, value.isObj = true := by
    decide +kernel
  have hfile : tree.find (globalFile log.folder) = .ok (some (.file bytes)) := rfl
  have hlines : lineTexts (tail log.tailBytes bytes) =
      [['\x7b', '\x7d'], ['?'], ['\x7b', '\x7d']] := by
    decide +kernel
  have hread : log.readFile (globalFile log.folder) tree = .ok [.obj [], .obj []] := by
    rw [readFile_file hfile, Log.values, if_neg (by decide +kernel), hlines]
    rfl
  have hevents : log.readGlobal none none (-1) tree = .ok [.obj []] := by
    rw [readGlobal, hread]
    rfl
  obtain ⟨full, hread, hprefix, -, -, hlength⟩ :=
    (readGlobal_limited hfile hobjects none none (-1)).2 _ hevents
  exact ⟨⟨hfile, hobjects⟩, hevents, full, hread, hprefix, hlength (by decide)⟩

/-- With a limit below zero a query gives more events than the limit allows for. -/
theorem readGlobal_negativeLimit :
    let bytes := Text.Utf8.encode "\x7b\x7d\n\x7b\x7d\n".toList
    let tree : FileTree := ⟨[(globalFile [], .file bytes)]⟩
    let log : Log := ⟨[], defaultTailBytes, .own⟩
    log.readFile (globalFile log.folder) tree = .ok [.obj [], .obj []] ∧
      ∃ events, log.readGlobal none none (-1) tree = .ok events ∧
        ¬ events.length ≤ max 0 (min (-1 : Int) 2000) := by
  exact ⟨by rfl, [.obj []], by rfl, by decide⟩

end ColumnFormula.Log
