import ColumnFormula.Proofs.Log.Windows

/-!
# Filtered queries on a damaged log

What other programs leave in the file of all events is of many kinds. A query with a filter passes
over bytes that encode no text and lines that hold no value, but not over a line that holds a value
other than an object: it stops there, whether the filters would keep the value or not.
-/

namespace ColumnFormula.Log

variable {log : Log} {tree : FileTree} {level kind : Option String} {limit : Int}

/-- Whatever the bytes of the global file are, a query with a filter gives a list exactly if
every line that it is shown is an object or is passed over, and the end of the file that is read
has a position. The list is then that of the objects in the file with the texts asked for, the
newest first and up to the limit; and a value that is no object stops the query. -/
theorem readGlobal_filtered {bytes : List UInt8}
    (hfile : tree.find (globalFile log.folder) = .ok (some (.file bytes)))
    (hasks : wanted level ≠ none ∨ wanted kind ≠ none) (hlimit : 0 ≤ limit) :
    ((∃ events, log.readGlobal level kind limit tree = .ok events) ↔
      bytes.length - log.tailBytes ≤ maxPosition ∧
        ∀ text ∈ lineTexts (tail log.tailBytes bytes),
          IsPassable log.limits.depth text ∧
            ∀ value ∈ value? log.limits.depth text, value.isObj = true) ∧
    (∀ events, log.readGlobal level kind limit tree = .ok events ↔
      ∃ full, log.readFile (globalFile log.folder) tree = .ok full ∧
        (∀ value ∈ full, value.isObj = true) ∧
        events = (full.filter (IsSelected level kind ·)).reverse.take (min limit 2000).toNat) ∧
    ∀ full, log.readFile (globalFile log.folder) tree = .ok full →
      (∃ value ∈ full, value.isObj = false) →
        log.readGlobal level kind limit tree = .error .notAnObject := by
  refine ⟨?_, fun events => readGlobal_eq_ok_iff hasks hlimit,
    fun full hread => readGlobal_of_not_isObj hread hasks⟩
  simp only [readGlobal_eq_ok_iff hasks hlimit]
  constructor
  · rintro ⟨events, full, hread, hobjects, -⟩
    obtain ⟨⟨hposition, hpassable⟩, rfl⟩ := (readFile_eq_ok_iff hfile).mp hread
    exact ⟨hposition, fun text htext => ⟨hpassable text htext, fun value hvalue =>
      hobjects value (List.mem_filterMap.mpr ⟨text, htext, hvalue⟩)⟩⟩
  · rintro ⟨hposition, hlines⟩
    refine ⟨_, _, (readFile_eq_ok_iff hfile).mpr
      ⟨⟨hposition, fun text htext => (hlines text htext).1⟩, rfl⟩, ?_, rfl⟩
    intro value hvalue
    obtain ⟨text, htext, hvalue⟩ := List.mem_filterMap.mp hvalue
    exact (hlines text htext).2 value hvalue

/-- Among bytes that encode no text, a blank line, an object without the level and the beginning
of a list, the event asked for is found. -/
theorem readGlobal_filtered_damagedLines :
    let event : Json := .obj [("level", .str "info")]
    let bytes := [0xFF, 10] ++ Text.Utf8.encode (event.write ++ "\n \n\x7b\x7d\u2028[1".toList)
    let tree : FileTree := ⟨[(globalFile [], .file bytes)]⟩
    let log : Log := ⟨[], defaultTailBytes, .own⟩
    (tree.find (globalFile log.folder) = .ok (some (.file bytes)) ∧
      (wanted (some "info") ≠ none ∨ wanted (some "") ≠ none) ∧ (0 : Int) ≤ 3) ∧
    log.readFile (globalFile log.folder) tree = .ok [event, .obj []] ∧
    log.readGlobal (some "info") (some "") 3 tree = .ok [event] := by
  intro event bytes tree log
  have hlines : lineTexts (tail log.tailBytes bytes) =
      [['\uFFFD'], event.write, ['\x7b', '\x7d'], ['[', '1']] := by
    decide +kernel
  have hevent : Json.ofChars event.write log.limits.depth = .ok event :=
    Json.ofChars_write (by simp [event, Json.HasUniqueKeys, Json.FieldsHaveUniqueKeys]) rfl
      (by decide)
  have hdamaged : Json.ofChars ['\uFFFD'] log.limits.depth = .error .malformed := by rfl
  have hempty : Json.ofChars ['\x7b', '\x7d'] log.limits.depth = .ok (.obj []) := by rfl
  have hcut : Json.ofChars ['[', '1'] log.limits.depth = .error .malformed := by rfl
  have hread : log.readFile (globalFile log.folder) tree = .ok [event, .obj []] := by
    rw [readFile_file rfl, values, if_neg (by decide +kernel), hlines]
    simp only [valuesOf, hdamaged, hevent, hempty, hcut]
    rfl
  refine ⟨⟨rfl, .inl (by decide), by decide⟩, hread, ?_⟩
  exact ((readGlobal_filtered rfl (.inl (by decide)) (by decide)).2.1 _).mpr
    ⟨_, hread, by simp [event, Json.isObj], rfl⟩

/-- A line with a list is read by a query without filters and stops one with a filter. -/
theorem readGlobal_listLine :
    let tree : FileTree := ⟨[(globalFile [], .file (Text.Utf8.encode "[1]\n".toList))]⟩
    let log : Log := ⟨[], defaultTailBytes, .own⟩
    log.readGlobal none none 200 tree = .ok [.arr [.int 1]] ∧
      log.readGlobal (some "info") none 200 tree = .error .notAnObject ∧
      ¬ ∃ full, log.readFile (globalFile log.folder) tree = .ok full ∧
        log.readGlobal (some "info") none 200 tree =
          .ok ((full.filter (IsSelected (some "info") none ·)).reverse.take
            (min 200 2000 : Int).toNat) := by
  intro tree log
  have hstopped : log.readGlobal (some "info") none 200 tree = .error .notAnObject := by rfl
  refine ⟨by rfl, hstopped, ?_⟩
  rintro ⟨full, -, hselected⟩
  rw [hstopped] at hselected
  cases hselected

end ColumnFormula.Log
