import ColumnFormula.Proofs.Log.AppendOnly

/-!
# The file of a calculation id

Whatever text is given as a calculation id, no file changes but that of all events and the file
that the id names. An id names a file if it is made of letters and digits of ASCII, underscores
and hyphens, with or without a line feed behind them; its file then stands in the folder of the
calculations under a name of its own. With any other id there is nothing to read.
-/

namespace ColumnFormula.Log

open FileTree

/-- Whether a text is made of the characters of ids, at least one. -/
def IsIdText (text : String) : Prop :=
  text ≠ "" ∧ ∀ c ∈ text.toList,
    ('A' ≤ c ∧ c ≤ 'Z') ∨ ('a' ≤ c ∧ c ≤ 'z') ∨ ('0' ≤ c ∧ c ≤ '9') ∨ c = '_' ∨ c = '-'

/-- Whether an id names a file. A line feed may stand at its end. -/
def NamesFile (id : String) : Prop :=
  IsIdText id ∨ ∃ text, IsIdText text ∧ id = text ++ "\n"

/-! ## Ids -/

theorem isIdText_iff {text : String} :
    IsIdText text ↔ text.toList ≠ [] ∧ text.toList.all isIdChar = true := by
  rw [IsIdText, List.all_eq_true, Ne, Ne, String.toList_eq_nil_iff]
  simp only [isIdChar_iff]

/-- The ids that pass the check are those that name files. -/
theorem isSafeId_iff {id : String} : isSafeId id = true ↔ NamesFile id := by
  constructor
  · intro h
    simp only [isSafeId, Bool.and_eq_true, Bool.not_eq_true', List.isEmpty_eq_false_iff] at h
    split at h
    next hlast =>
      refine .inr ⟨String.ofList id.toList.dropLast, isIdText_iff.mpr ?_, ?_⟩
      · rw [String.toList_ofList]
        exact h
      · rw [← String.toList_inj, String.toList_append, String.toList_ofList]
        exact (List.dropLast_append_getLast? '\n' hlast).symm
    next => exact .inl (isIdText_iff.mpr h)
  · rintro (htext | ⟨text, htext, rfl⟩)
    · obtain ⟨hne, hchars⟩ := htext
      exact isSafeId_of_isIdChar hne fun c hc => isIdChar_iff.mpr (hchars c hc)
    · have hline : "\n".toList = ['\n'] := rfl
      obtain ⟨hne, hchars⟩ := isIdText_iff.mp htext
      simp only [isSafeId, String.toList_append, hline, List.getLast?_concat, if_pos,
        List.dropLast_concat, Bool.and_eq_true, Bool.not_eq_true', List.isEmpty_eq_false_iff]
      exact ⟨hne, hchars⟩

/-- The name of a file that an id names is not a path of several names. -/
theorem NamesFile.slash_not_mem {id : String} (h : NamesFile id) : '/' ∉ id.toList := by
  have hslash : ∀ {text : String}, IsIdText text → '/' ∉ text.toList := by
    intro text htext hmem
    exact absurd (htext.2 _ hmem) (by decide)
  rcases h with htext | ⟨text, htext, rfl⟩
  · exact hslash htext
  · rw [String.toList_append, List.mem_append]
    rintro (hmem | hmem)
    · exact hslash htext hmem
    · exact absurd hmem (by decide)

/-! ## Files -/

section Writing

variable {log : Log} {event : Event} {calcId : Option String} {tree written : FileTree}
  {path : Path}

theorem mem_targets_iff :
    path ∈ log.targets calcId ↔
      path = globalFile log.folder ∨
        ∃ id, calcId = some id ∧ NamesFile id ∧ path = calcFile log.folder id := by
  unfold targets
  rw [List.mem_cons]
  cases calcId with
  | none => simp
  | some id =>
      simp only [Option.some.injEq, exists_eq_left', ← isSafeId_iff]
      split
      next hsafe => simp [hsafe]
      next hother => simp [hother]

/-- What is no target of an event is left alone, also by a write that fails halfway. -/
theorem keeps_write (hpath : path ∉ log.targets calcId) :
    tree.Keeps (log.write event calcId tree).1 path := by
  unfold write
  split
  · exact .refl tree path
  · obtain ⟨done, hdone, happend⟩ :=
      exists_of_appendEachAmid (fun _ => none) (lineBytes event) (log.targets calcId) tree
    rw [appendEachAmid_none] at happend
    exact keeps_of_appendEach (fun hmem => hpath (hdone.subset hmem)) happend

/-- Whatever the calculation id is, a write changes at most the file of all events and, if the id
names one, its own file, which is where a query for the id looks; a query for any other id finds
nothing. -/
theorem calcId_confined (log : Log) (event : Event) (calcId : Option String) (tree : FileTree) :
    (∀ path, path ≠ globalFile log.folder →
      (∀ id, calcId = some id → NamesFile id → path ≠ calcFile log.folder id) →
        tree.Keeps (log.write event calcId tree).1 path) ∧
    (∀ id, ¬ NamesFile id → log.readCalc id tree = .ok []) ∧
    ∀ id, NamesFile id →
      '/' ∉ id.toList ∧
      log.readCalc id tree = log.readFile (calcFile log.folder id) tree ∧
      ∀ written, log.write event (some id) tree = (written, none) →
        written.node? (calcFile log.folder id) =
          some (.file (tree.contents (calcFile log.folder id) ++ lineBytes event)) := by
  refine ⟨fun path hglobal hcalc => keeps_write ?_, fun id hid => ?_, fun id hid => ?_⟩
  · rw [mem_targets_iff]
    rintro (hpath | ⟨id, hid, hnames, hpath⟩)
    · exact hglobal hpath
    · exact hcalc id hid hnames hpath
  · exact if_neg (mt isSafeId_iff.mp hid)
  · have hsafe := isSafeId_iff.mpr hid
    refine ⟨hid.slash_not_mem, if_pos hsafe, fun written hwrite => ?_⟩
    rw [node?_write (.inr ⟨id, hsafe, rfl⟩) hwrite,
      if_pos ((calcFile_mem_targets_iff hsafe).mpr rfl)]

/-- An id with a line feed behind its text is given a file, and an event is read back from it. -/
theorem calcId_lineFeed :
    let event : Event := ⟨1, "t", .info, .formulaSet, [], "m", none⟩
    let log : Log := ⟨[], defaultTailBytes, .own⟩
    let written := (log.write event (some "a\n") .empty).1
    ¬ IsIdText "a\n" ∧ FileTree.empty.node? (calcFile [] "a\n") = none ∧
      written.node? (calcFile [] "a\n") = some (.file (lineBytes event)) ∧
      log.readCalc "a\n" written = .ok [event.dump] := by
  intro event log written
  have hsafe : isSafeId "a\n" = true := by decide
  have hwrite : log.write event (some "a\n") .empty = (written, none) :=
    Prod.ext rfl (by decide +kernel)
  have hnode : written.node? (calcFile [] "a\n") = some (.file (lineBytes event)) := by
    have hnone : FileTree.empty.contents (calcFile log.folder "a\n") = [] := by rfl
    rw [node?_write (.inr ⟨"a\n", hsafe, rfl⟩) hwrite,
      if_pos ((calcFile_mem_targets_iff hsafe).mpr rfl), hnone, List.nil_append]
  refine ⟨fun htext => absurd (htext.2 '\n' (by decide)) (by decide), rfl, hnode, ?_⟩
  have hvalues : values log.limits.depth defaultTailBytes ([event].flatMap lineBytes) =
      .ok ([event].map Event.dump) :=
    values_of_written (by simp [event, Event.HasUniqueKeys, Json.HasUniqueKeys,
      Json.FieldsHaveUniqueKeys]) (by simpa using (write_eq_none hwrite).1) (by decide +kernel)
  rw [List.flatMap_singleton] at hvalues
  rw [readCalc, if_pos hsafe, readFile_of_holds (.inl hnode) (by decide) (by decide)]
  exact hvalues

end Writing

end ColumnFormula.Log
