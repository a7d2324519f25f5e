import Mathlib.Data.List.DropRight
import ColumnFormula.Proofs.Json.Fragments
import ColumnFormula.Proofs.Log.Limits

/-!
# Events behind an open line

An event is put behind whatever the log holds. Behind a line that is ended, or of which there are
only blanks, it is the newest of the events that are read and the others stay as they were, however
damaged their lines are. But behind an open line, as an append leaves it that was cut short, it is
more of that line: no text in front of an event makes up a value with it. Then the event is not
read, and the value that the open line held alone is not read any more either.
-/

namespace ColumnFormula

namespace Text

/-! ## The last line of a text -/

/-- What stands behind the last line break of a text. -/
def openLine (s : List Char) : List Char :=
  s.rtakeWhile (!isLineBreak ·)

theorem isLineBreak_of_mem_openLine {s : List Char} {c : Char} (h : c ∈ openLine s) :
    isLineBreak c = false := by
  simpa using List.mem_rtakeWhile_imp h

/-- The lines in front of the open one stay as they are, whatever is put behind it. -/
theorem exists_splitLines_append (s : List Char) :
    ∃ lines, ∀ t : List Char, t.head? ≠ some '\n' →
      splitLines (s ++ t) = lines ++ splitLines (openLine s ++ t) := by
  have hsplit : s.rdropWhile (!isLineBreak ·) ++ openLine s = s := List.rdropWhile_append_rtakeWhile
  by_cases hnil : s.rdropWhile (!isLineBreak ·) = []
  · rw [hnil, List.nil_append] at hsplit
    exact ⟨[], fun t _ => by rw [hsplit, List.nil_append]⟩
  · refine ⟨splitLines (s.rdropWhile (!isLineBreak ·)), fun t ht => ?_⟩
    have hbreak := List.rdropWhile_last_not _ _ hnil
    rw [Bool.not_eq_true', Bool.not_eq_false] at hbreak
    conv => lhs; rw [← hsplit, List.append_assoc]
    refine splitLines_append_of_break (List.getLast?_eq_some_getLast hnil) hbreak fun _ => ?_
    cases hopen : openLine s with
    | nil => exact ht
    | cons c rest =>
        have hc : isLineBreak c = false :=
          isLineBreak_of_mem_openLine (s := s) (by rw [hopen]; exact List.mem_cons_self)
        intro hhead
        rw [Option.some.inj hhead] at hc
        cases hc

end Text

namespace Event

theorem write_dump_ends (event : Event) :
    event.dump.write.head? = some '\x7b' ∧ event.dump.write.getLast? = some '\x7d' :=
  Json.write_obj_ends (Json.sortKeysFields event.toFields)

/-- The line of an event is that of an object that is read as a whole only. -/
theorem isKeyedObject_dump {event : Event} {limits : Limits} (hkeys : event.HasUniqueKeys)
    (h : event.IsWritable limits) : Json.IsKeyedObject event.dump.write := by
  have hletters : ∀ key ∈ event.toFields.map Prod.fst,
      ∃ c ∈ key.toList.head?, c.isAlpha = true := by
    simp [toFields]
  have hperm := Json.perm_keys_sortKeysFields event.toFields
  have hunique : event.dump.HasUniqueKeys :=
    Json.hasUniqueKeys_sortKeys _ (hasUniqueKeys_toJson hkeys)
  have hint : event.dump.hasHugeInteger = false := by
    rw [dump, Json.hasHugeInteger_sortKeys]
    exact h.2
  have hdump : event.dump = .obj (Json.sortKeysFields event.toFields) := rfl
  rw [hdump] at hunique hint ⊢
  cases hfields : Json.sortKeysFields event.toFields with
  | nil =>
      rw [hfields] at hperm
      cases hperm.length_eq
  | cons field fields =>
      rw [hfields] at hunique hint hperm
      refine Json.isKeyedObject_write (hletters _ (hperm.mem_iff.mp ?_)) hunique hint
      exact List.mem_cons_self

end Event

namespace Json

theorem isBlank_of_isSpace {c : Char} (h : isSpace c = true) : Text.isBlank c = true := by
  simp only [isSpace, Bool.or_eq_true, beq_iff_eq] at h
  rcases h with ((rfl | rfl) | rfl) | rfl <;> decide

end Json

namespace Log

variable {log : Log} {event : Event} {calcId : Option String} {tree written : FileTree}
  {bytes : List UInt8} {limit : Int}

/-! ## Lines -/

/-- The text of an open line at the end of some bytes, without the blanks in front of it. -/
def openText (bytes : List UInt8) : List Char :=
  (Text.openLine (Text.Utf8.decodeLossy bytes)).dropWhile Text.isBlank

/-- The line of an event is decoded as itself behind any bytes, also within a character. -/
theorem decodeLossy_append_lineBytes (bytes : List UInt8) (event : Event) :
    Text.Utf8.decodeLossy (bytes ++ lineBytes event) =
      Text.Utf8.decodeLossy bytes ++ (event.dump.write ++ ['\n']) := by
  obtain ⟨rest, hdump⟩ := List.head?_eq_some_iff.mp event.write_dump_ends.1
  have hline : line event = '\x7b' :: (rest ++ ['\n']) := by
    change event.dump.write ++ ['\n'] = _
    rw [hdump, List.cons_append]
  rw [lineBytes, hline, Text.Utf8.decodeLossy_append_encode bytes (by decide), hdump,
    List.cons_append]

/-- Behind an open text the line of an event is trimmed in front of that text only. -/
theorem strip_append_dump (s : List Char) (event : Event) :
    Text.strip (s ++ event.dump.write) = s.dropWhile Text.isBlank ++ event.dump.write := by
  obtain ⟨hhead, hlast⟩ := event.write_dump_ends
  have hdump : event.dump.write.dropWhile Text.isBlank = event.dump.write := by
    apply Text.dropWhile_eq_self
    intro c hc
    obtain rfl : '\x7b' = c := Option.some.inj (hhead.symm.trans hc)
    decide
  have htrim : Text.strip (s ++ event.dump.write) =
      (s ++ event.dump.write).dropWhile Text.isBlank := by
    apply Text.trimBy_eq_dropWhile
    intro c hc
    rw [List.getLast?_append, hlast] at hc
    obtain rfl : '\x7d' = c := Option.some.inj hc
    decide
  rw [htrim, List.dropWhile_append]
  split
  next hblank => rw [hdump, List.isEmpty_iff.mp hblank, List.nil_append]
  next => rfl

/-- The line of an event goes on with the text of the open line. -/
theorem exists_lineTexts_append (bytes : List UInt8) (event : Event) :
    ∃ texts,
      lineTexts bytes = texts ++ [Text.strip (openText bytes)].filter (!·.isEmpty) ∧
      lineTexts (bytes ++ lineBytes event) = texts ++ [openText bytes ++ event.dump.write] := by
  obtain ⟨lines, hlines⟩ := Text.exists_splitLines_append (Text.Utf8.decodeLossy bytes)
  refine ⟨(lines.map Text.strip).filter (!·.isEmpty), ?_, ?_⟩
  · have hbefore := hlines [] (by simp)
    rw [List.append_nil, List.append_nil] at hbefore
    rw [lineTexts, hbefore, List.map_append, List.filter_append, openText, Text.strip,
      Text.trimBy_dropWhile]
    by_cases hopen : Text.openLine (Text.Utf8.decodeLossy bytes) = []
    · rw [hopen]
      rfl
    · rw [Text.splitLines_eq_singleton (fun c => Text.isLineBreak_of_mem_openLine) hopen]
      rfl
  · obtain ⟨rest, hdump⟩ := List.head?_eq_some_iff.mp event.write_dump_ends.1
    have hhead : (event.dump.write ++ ['\n']).head? ≠ some '\n' := by
      rw [hdump]
      simp
    have hunbroken : ∀ c ∈ Text.openLine (Text.Utf8.decodeLossy bytes) ++ event.dump.write,
        Text.isLineBreak c = false := by
      rw [List.forall_mem_append]
      exact ⟨fun c => Text.isLineBreak_of_mem_openLine,
        fun c hc => (Json.isPlain_write _ c hc).isLineBreak_eq_false⟩
    have hne : openText bytes ++ event.dump.write ≠ [] := by
      rw [hdump]
      simp
    rw [lineTexts, decodeLossy_append_lineBytes, hlines _ hhead, ← List.append_assoc,
      Text.splitLines_append_newline hunbroken [], List.map_append, List.filter_append]
    rw [Text.splitLines, List.map_singleton, strip_append_dump, ← openText,
      List.filter_cons_of_pos (by simpa using hne), List.filter_nil]

/-! ## Values of lines -/

section Values

variable {limits : Limits}

theorem value?_dump (hkeys : event.HasUniqueKeys) (hwritable : event.IsWritable limits) :
    value? limits.depth event.dump.write = some event.dump := by
  rw [value?, Event.ofChars_write_dump hkeys hwritable]
  rfl

/-- A line that goes on with the text of an open line holds no value. -/
theorem value?_append_dump (hkeys : event.HasUniqueKeys) (hwritable : event.IsWritable limits)
    (hopen : openText bytes ≠ []) :
    value? limits.depth (openText bytes ++ event.dump.write) = none := by
  have hhead : ∀ c ∈ (openText bytes).head?, Json.isSpace c = false := by
    intro c hc
    have hblank : Text.isBlank c = false := Text.head?_dropWhile_false hc
    rw [Bool.eq_false_iff] at hblank ⊢
    exact mt Json.isBlank_of_isSpace hblank
  rw [value?]
  cases hread : Json.ofChars (openText bytes ++ event.dump.write) limits.depth with
  | ok value =>
      exact absurd hread
        (Json.ofChars_append_ne_ok (Event.isKeyedObject_dump hkeys hwritable) hopen hhead value)
  | error error => rfl

/-- The value of the text of an open line is the last one that is read. -/
theorem filterMap_value?_strip (depth : Nat) (text : List Char) :
    ([Text.strip text].filter (!·.isEmpty)).filterMap (value? depth) =
      (value? depth (Text.strip text)).toList := by
  by_cases hempty : Text.strip text = []
  · rw [hempty]
    rfl
  · rw [List.filter_cons_of_pos (by simpa using hempty), List.filter_nil, List.filterMap_cons]
    cases value? depth (Text.strip text) <;> rfl

/-- Where no line is open, the line of an event is a line of its own. -/
theorem lineTexts_append_of_ended (hended : openText bytes = []) (event : Event) :
    lineTexts (bytes ++ lineBytes event) = lineTexts bytes ++ [event.dump.write] := by
  obtain ⟨texts, hbefore, hafter⟩ := exists_lineTexts_append bytes event
  have hblank : [Text.strip []].filter (!·.isEmpty) = [] := rfl
  rw [hended, hblank, List.append_nil] at hbefore
  rw [hafter, hbefore, hended, List.nil_append]

/-- Behind an open line an event adds no value, and that of the line is lost. -/
theorem filterMap_value?_of_open (hkeys : event.HasUniqueKeys) (hwritable : event.IsWritable limits)
    (hopen : openText bytes ≠ []) :
    (lineTexts bytes).filterMap (value? limits.depth) =
      (lineTexts (bytes ++ lineBytes event)).filterMap (value? limits.depth) ++
        (value? limits.depth (Text.strip (openText bytes))).toList := by
  obtain ⟨texts, hbefore, hafter⟩ := exists_lineTexts_append bytes event
  rw [hafter, hbefore, List.filterMap_append, List.filterMap_append, filterMap_value?_strip,
    List.filterMap_cons, value?_append_dump hkeys hwritable hopen, List.filterMap_nil,
    List.append_nil]

end Values

/-! ## Queries -/

/-- A file that is read can have its name and is no folder. -/
theorem holds_of_readFile {path : Path} {full : List Json}
    (h : log.readFile path tree = .ok full) :
    path.any FileTree.isTooLong = false ∧ tree.Holds path (tree.contents path) := by
  rw [readFile, FileTree.find] at h
  cases hname : path.any FileTree.isTooLong with
  | true =>
      rw [hname] at h
      cases h
  | false =>
      refine ⟨rfl, ?_⟩
      rw [hname] at h
      cases hnode : tree.node? path with
      | none => exact .inr ⟨hnode, by rw [FileTree.contents, hnode]⟩
      | some node =>
          cases node with
          | folder =>
              rw [hnode] at h
              cases h
          | file bytes => exact .inl (by rw [FileTree.contents, hnode])

/-- A file that is read as a whole gives the values of its lines, if none stops the reading. -/
theorem readFile_eq_ok_iff_of_holds {path : Path} {full : List Json}
    (hname : path.any FileTree.isTooLong = false) (hholds : tree.Holds path bytes)
    (hlength : bytes.length ≤ log.tailBytes) :
    log.readFile path tree = .ok full ↔
      (∀ text ∈ lineTexts bytes, IsPassable log.limits.depth text) ∧
        full = (lineTexts bytes).filterMap (value? log.limits.depth) := by
  rw [readFile_of_holds hholds hname (by omega), values_of_length_le hlength, valuesOf_eq_ok_iff]

theorem readGlobal_eq_ok_iff_unfiltered {events : List Json} :
    log.readGlobal none none limit tree = .ok events ↔
      ∃ full, log.readFile (globalFile log.folder) tree = .ok full ∧
        takeLimit limit full.reverse = events := by
  rw [readGlobal]
  cases log.readFile (globalFile log.folder) tree with
  | error error => simp [bind, Except.bind]
  | ok full => simp [bind, Except.bind, applyFilter]

/-- What a query without filters gives of a file that is read as a whole. -/
theorem readGlobal_eq_ok_iff_of_holds {events : List Json}
    (hname : (globalFile log.folder).any FileTree.isTooLong = false)
    (hholds : tree.Holds (globalFile log.folder) bytes) (hlength : bytes.length ≤ log.tailBytes) :
    log.readGlobal none none limit tree = .ok events ↔
      (∀ text ∈ lineTexts bytes, IsPassable log.limits.depth text) ∧
        takeLimit limit ((lineTexts bytes).filterMap (value? log.limits.depth)).reverse =
          events := by
  rw [readGlobal_eq_ok_iff_unfiltered]
  constructor
  · rintro ⟨full, hfull, hevents⟩
    obtain ⟨hpassable, rfl⟩ := (readFile_eq_ok_iff_of_holds hname hholds hlength).mp hfull
    exact ⟨hpassable, hevents⟩
  · rintro ⟨hpassable, hevents⟩
    exact ⟨_, (readFile_eq_ok_iff_of_holds hname hholds hlength).mpr ⟨hpassable, rfl⟩, hevents⟩

/-- Values of which fewer are given than the limit allows for are all given. -/
theorem takeLimit_of_length_lt {values : List Json}
    (h : (takeLimit limit values).length < min limit maxLimit) : takeLimit limit values = values := by
  apply (isPrefix_takeLimit limit values).eq_of_length
  have hlength := length_takeLimit limit values
  split at hlength <;> omega

/-- A new event is read in front of those that were read before exactly if the last line is ended
or blank, whatever else the file holds. Behind an open line neither the new event is read nor the
value that this line held, and everything else as before. -/
theorem readGlobal_write {before : List Json} (hkeys : event.HasUniqueKeys)
    (hwrite : log.write event calcId tree = (written, none))
    (hwindow : (written.contents (globalFile log.folder)).length ≤ log.tailBytes)
    (hread : log.readGlobal none none limit tree = .ok before)
    (hlimit : before.length < min limit 2000) :
    let text := openText (tree.contents (globalFile log.folder))
    (log.readGlobal none none limit written = .ok (event.dump :: before) ↔ text = []) ∧
    (text ≠ [] → ∀ after, log.readGlobal none none limit written = .ok after →
      before = (value? log.limits.depth (Text.strip text)).toList ++ after) := by
  intro text
  obtain ⟨hwritable, happend⟩ := write_eq_none hwrite
  obtain ⟨full, hfull⟩ := exists_readFile_of_readGlobal hread
  obtain ⟨hname, hholds⟩ := holds_of_readFile hfull
  have hwritten : written.Holds (globalFile log.folder)
      (tree.contents (globalFile log.folder) ++ lineBytes event) := by
    have hfiles := Holds.append (.inl rfl) hholds happend
    rwa [if_pos (globalFile_mem_targets log calcId)] at hfiles
  rw [hwritten.contents_eq] at hwindow
  have hshort : (tree.contents (globalFile log.folder)).length ≤ log.tailBytes := by
    rw [List.length_append] at hwindow
    omega
  obtain ⟨hpassable, rfl⟩ := (readGlobal_eq_ok_iff_of_holds hname hholds hshort).mp hread
  have hmax : maxLimit = 2000 := rfl
  rw [takeLimit_of_length_lt hlimit]
  rw [takeLimit_of_length_lt hlimit, List.length_reverse] at hlimit
  have hopen : text ≠ [] → ∀ after, log.readGlobal none none limit written = .ok after →
      ((lineTexts (tree.contents (globalFile log.folder))).filterMap
          (value? log.limits.depth)).reverse =
        (value? log.limits.depth (Text.strip text)).toList ++ after := by
    intro htext after hread
    obtain ⟨-, rfl⟩ := (readGlobal_eq_ok_iff_of_holds hname hwritten hwindow).mp hread
    have hbefore := filterMap_value?_of_open hkeys hwritable htext
    have hcount := congrArg List.length hbefore
    have hsingle : (value? log.limits.depth (Text.strip text)).toList.reverse =
        (value? log.limits.depth (Text.strip text)).toList := by
      cases value? log.limits.depth (Text.strip text) <;> rfl
    rw [List.length_append] at hcount
    rw [takeLimit_eq_self (by rw [List.length_reverse, hmax]; omega), hbefore,
      List.reverse_append, hsingle]
  refine ⟨⟨fun h => ?_, fun htext => ?_⟩, hopen⟩
  · by_contra htext
    have hlength := congrArg List.length (hopen htext _ h)
    rw [List.length_append, List.length_cons] at hlength
    omega
  · have hlines := lineTexts_append_of_ended htext event
    refine (readGlobal_eq_ok_iff_of_holds hname hwritten hwindow).mpr ⟨?_, ?_⟩
    · rw [hlines, List.forall_mem_append, List.forall_mem_singleton]
      refine ⟨hpassable, fun error herror => ?_⟩
      rw [Event.ofChars_write_dump hkeys hwritable] at herror
      cases herror
    · rw [hlines, List.filterMap_append, List.filterMap_cons, value?_dump hkeys hwritable,
        List.filterMap_nil, List.reverse_append]
      apply takeLimit_eq_self
      rw [List.length_append, List.length_reverse, List.length_reverse, List.length_singleton, hmax]
      omega

/-- Bytes that encode no text, a damaged line and a last line of a blank hide nothing. -/
theorem readGlobal_write_damagedLines :
    let event : Event := ⟨1, "t", .info, .formulaSet, [], "m", none⟩
    let bytes := [0xFF, 10] ++ Text.Utf8.encode "7\n?\n ".toList
    let tree : FileTree := ⟨[(["logs"], .folder), (globalFile [], .file bytes)]⟩
    let log : Log := ⟨[], defaultTailBytes, .own⟩
    let written := (log.write event none tree).1
    (event.HasUniqueKeys ∧ log.write event none tree = (written, none) ∧
      (written.contents (globalFile log.folder)).length ≤ log.tailBytes ∧
      log.readGlobal none none 2 tree = .ok [.int 7] ∧ (1 : Int) < min 2 2000) ∧
    openText (tree.contents (globalFile log.folder)) = [] ∧
    log.readGlobal none none 2 written = .ok [event.dump, .int 7] := by
  intro event bytes tree log written
  have hkeys : event.HasUniqueKeys := ⟨List.nodup_nil, trivial⟩
  have hwrite : log.write event none tree = (written, none) :=
    Prod.ext rfl (by decide +kernel)
  have hwindow : (written.contents (globalFile log.folder)).length ≤ log.tailBytes := by
    decide +kernel
  have hlines : lineTexts bytes = [['\uFFFD'], ['7'], ['?']] := by decide +kernel
  have hread : log.readGlobal none none 2 tree = .ok [.int 7] := by
    refine readGlobal_eq_ok_iff_unfiltered.mpr ⟨[.int 7], ?_, rfl⟩
    rw [readFile_file rfl, values_of_length_le (by decide +kernel), hlines]
    rfl
  have hended : openText (tree.contents (globalFile log.folder)) = [] := by decide +kernel
  have hlimit : (([.int 7] : List Json).length : Int) < min 2 2000 := by decide
  have hevents := (readGlobal_write hkeys hwrite hwindow hread hlimit).1.mpr hended
  exact ⟨⟨hkeys, hwrite, hwindow, hread, hlimit⟩, hended, hevents⟩

/-- Behind the beginning of a line, as an append leaves it that was cut short, the new event is
not read. -/
theorem readGlobal_write_openLine :
    let event : Event := ⟨1, "t", .info, .formulaSet, [], "m", none⟩
    let bytes := Text.Utf8.encode "\x7b\"con".toList
    let tree : FileTree := ⟨[(["logs"], .folder), (globalFile [], .file bytes)]⟩
    let log : Log := ⟨[], defaultTailBytes, .own⟩
    let written := (log.write event none tree).1
    (log.write event none tree).2 = none ∧
      (written.contents (globalFile log.folder)).length ≤ log.tailBytes ∧
      log.readGlobal none none 200 tree = .ok [] ∧
      log.readGlobal none none 200 written = .ok [] := by
  intro event bytes tree log written
  have hwrite : (log.write event none tree).2 = none := by decide +kernel
  have hwindow : (written.contents (globalFile log.folder)).length ≤ log.tailBytes := by
    decide +kernel
  have hread : log.readGlobal none none 200 tree = .ok [] := by
    have hlines : lineTexts bytes = ["\x7b\"con".toList] := by decide +kernel
    refine readGlobal_eq_ok_iff_unfiltered.mpr ⟨[], ?_, rfl⟩
    rw [readFile_file rfl, values_of_length_le (by decide +kernel), hlines]
    rfl
  have hnode : written.node? (globalFile []) = some (.file (bytes ++ lineBytes event)) := by
    exact node?_write (.inl rfl) (Prod.ext rfl hwrite)
  have hcount : (valuesOf log.limits.depth
      (lineTexts (bytes ++ lineBytes event))).toOption.map List.length = some 0 := by
    decide +kernel
  refine ⟨hwrite, hwindow, hread, readGlobal_eq_ok_iff_unfiltered.mpr ⟨[], ?_, rfl⟩⟩
  rw [readFile_of_holds (.inl hnode) (by decide) (by decide),
    values_of_length_le (by decide +kernel)]
  cases hvalues : valuesOf log.limits.depth (lineTexts (bytes ++ lineBytes event)) with
  | error error =>
      rw [hvalues] at hcount
      cases hcount
  | ok values =>
      rw [hvalues] at hcount
      rw [List.length_eq_zero_iff.mp (Option.some.inj hcount)]

end Log

end ColumnFormula
