import ColumnFormula.Proofs.FileTree.Appending
import ColumnFormula.Proofs.Log.Lines

/-!
# What the files of a log hold

A log that is created in an empty folder has no files. Every write that succeeds puts one line
behind those of the global file and, for an event with a safe calculation id, the same line
behind those of the file of this id; all other files of the log stay as they are. So after any
number of such writes each file holds the lines of its events, in the order of writing.
-/

namespace ColumnFormula

namespace FileTree

/-- Whether there is nothing in a folder. -/
def IsEmptyFolder (tree : FileTree) (folder : Path) : Prop :=
  ∀ name names, isAncestor (folder ++ name :: names) = false →
    tree.node? (folder ++ name :: names) = none

/-- Whether a file holds some bytes; a file that does not exist holds none. -/
def Holds (tree : FileTree) (path : Path) (bytes : List UInt8) : Prop :=
  tree.node? path = some (.file bytes) ∨ (tree.node? path = none ∧ bytes = [])

theorem Holds.contents_eq {tree : FileTree} {path : Path} {bytes : List UInt8}
    (h : tree.Holds path bytes) : tree.contents path = bytes := by
  rcases h with hfile | ⟨hnone, rfl⟩
  · rw [contents, hfile]
  · rw [contents, hnone]

theorem Holds.congr {tree other : FileTree} {path : Path} {bytes : List UInt8}
    (h : tree.Holds path bytes) (hnode : other.node? path = tree.node? path) :
    other.Holds path bytes := by
  rw [Holds, hnode]
  exact h

theorem isAncestor_append {path : Path} {name : String} (hup : name ≠ "..") (hroot : name ≠ "") :
    isAncestor (path ++ [name]) = false := by
  rw [isAncestor, Bool.or_eq_false_iff]
  constructor
  · simp [hup]
  · rw [beq_eq_false_iff_ne]
    intro heq
    have hlast := congrArg List.getLast? heq
    rw [List.getLast?_append] at hlast
    exact hroot (Option.some.inj hlast)

end FileTree

namespace Log

open FileTree

/-! ## The places of the files -/

theorem calcFile_injective {folder : Path} {id id' : String}
    (h : calcFile folder id = calcFile folder id') : id = id' := by
  have hname : id ++ ".ndjson" = id' ++ ".ndjson" := by
    simpa [calcFile] using h
  have hchars := congrArg String.toList hname
  rw [String.toList_append, String.toList_append] at hchars
  exact String.toList_inj.mp (List.append_cancel_right hchars)

theorem isAncestor_globalFile (folder : Path) : isAncestor (globalFile folder) = false :=
  isAncestor_append (by decide) (by decide)

theorem isAncestor_calcFile (folder : Path) (id : String) :
    isAncestor (calcFile folder id) = false := by
  have hlength : (id ++ ".ndjson").length = id.length + 7 := String.length_append _ _
  apply isAncestor_append
  · intro heq
    rw [heq] at hlength
    have htwo : "..".length = 2 := rfl
    omega
  · intro heq
    rw [heq] at hlength
    have hzero : "".length = 0 := rfl
    omega

theorem not_globalFile_prefix_calcFolder (folder : Path) :
    ¬ globalFile folder <+: calcFolder folder := by
  simp [globalFile, calcFolder, logFolder]

theorem not_calcFile_prefix_calcFolder (folder : Path) (id : String) :
    ¬ calcFile folder id <+: calcFolder folder := by
  intro hbelow
  have hlength := hbelow.length_le
  rw [calcFile, List.length_append, List.length_singleton] at hlength
  omega

theorem not_globalFile_prefix_calcFile (folder : Path) (id : String) :
    ¬ globalFile folder <+: calcFile folder id := by
  simp [globalFile, calcFile, calcFolder, logFolder]

theorem not_calcFile_prefix_globalFile (folder : Path) (id : String) :
    ¬ calcFile folder id <+: globalFile folder := by
  simp [globalFile, calcFile, calcFolder, logFolder]

theorem not_calcFile_prefix_calcFile {folder : Path} {id id' : String} (h : id ≠ id') :
    ¬ calcFile folder id <+: calcFile folder id' := by
  intro hbelow
  have hlength : (calcFile folder id).length = (calcFile folder id').length := by
    simp [calcFile]
  exact h (calcFile_injective (hbelow.eq_of_length hlength))

/-! ## One write -/

/-- The events of one recalculation. -/
def ofCalc (id : String) (entries : List (Event × Option String)) : List Event :=
  (entries.filter (·.2 = some id)).map Prod.fst

/-- What the files of a log hold after some events were written. -/
structure Records (log : Log) (entries : List (Event × Option String)) (tree : FileTree) :
    Prop where
  holdsGlobal : tree.Holds (globalFile log.folder) ((entries.map Prod.fst).flatMap lineBytes)
  holdsCalc : ∀ id, isSafeId id = true →
    tree.Holds (calcFile log.folder id) ((ofCalc id entries).flatMap lineBytes)

theorem ofCalc_append (id : String) (entries : List (Event × Option String))
    (entry : Event × Option String) :
    ofCalc id (entries ++ [entry]) =
      ofCalc id entries ++ if entry.2 = some id then [entry.1] else [] := by
  rw [ofCalc, List.filter_append, List.map_append, ofCalc]
  congr 1
  split
  next h => simp [h]
  next h => simp [h]

theorem write_eq_none {log : Log} {event : Event} {id : Option String} {tree written : FileTree}
    (h : log.write event id tree = (written, none)) :
    event.IsWritable log.limits ∧
      appendEach (lineBytes event) (log.targets id) tree = (written, none) := by
  unfold Log.write at h
  split at h
  next => cases h
  next hrefused =>
    obtain ⟨rfl, hrefusal⟩ := Prod.mk.inj h
    rw [Bool.not_eq_true, Bool.or_eq_false_iff] at hrefused
    refine ⟨hrefused, Prod.ext rfl ?_⟩
    exact Option.map_eq_none_iff.mp hrefusal

theorem appendEach_cons_eq_none {bytes : List UInt8} {path : Path} {paths : List Path}
    {tree written : FileTree} (h : appendEach bytes (path :: paths) tree = (written, none)) :
    ∃ extended, appendTo tree path bytes = .ok extended ∧
      appendEach bytes paths extended = (written, none) := by
  rw [appendEach] at h
  split at h
  next extended hextended => exact ⟨extended, hextended, h⟩
  next => cases h

/-- A path to a file of a log: that of all events, or that of a calculation. -/
def IsFile (log : Log) (path : Path) : Prop :=
  path = globalFile log.folder ∨ ∃ id, isSafeId id = true ∧ path = calcFile log.folder id

theorem IsFile.isAncestor {log : Log} {path : Path} (h : log.IsFile path) :
    FileTree.isAncestor path = false := by
  rcases h with rfl | ⟨id, -, rfl⟩
  · exact isAncestor_globalFile _
  · exact isAncestor_calcFile _ id

/-- The files of a log stand side by side. -/
theorem IsFile.not_prefix {log : Log} {path other : Path} (h : log.IsFile path)
    (hother : log.IsFile other) (hne : other ≠ path) : ¬ path <+: other := by
  rcases h with rfl | ⟨id, -, rfl⟩
  · rcases hother with rfl | ⟨id', -, rfl⟩
    · exact absurd rfl hne
    · exact not_globalFile_prefix_calcFile _ _
  · rcases hother with rfl | ⟨id', -, rfl⟩
    · exact not_calcFile_prefix_globalFile _ _
    · exact not_calcFile_prefix_calcFile fun heq => hne (congrArg (calcFile log.folder) heq.symm)

theorem isFile_of_mem_targets {log : Log} {id : Option String} {path : Path}
    (h : path ∈ log.targets id) : log.IsFile path := by
  unfold targets at h
  rcases List.mem_cons.mp h with rfl | h
  · exact .inl rfl
  · cases id with
    | none => cases h
    | some id =>
        dsimp only at h
        split at h
        next hsafe => exact .inr ⟨id, hsafe, List.mem_singleton.mp h⟩
        next => cases h

theorem globalFile_mem_targets (log : Log) (id : Option String) :
    globalFile log.folder ∈ log.targets id :=
  List.mem_cons_self

theorem calcFile_mem_targets_iff {log : Log} {id : Option String} {id' : String}
    (hsafe : isSafeId id' = true) : calcFile log.folder id' ∈ log.targets id ↔ id = some id' := by
  have hne : calcFile log.folder id' ≠ globalFile log.folder := fun heq =>
    not_calcFile_prefix_globalFile log.folder id' (heq ▸ List.prefix_rfl)
  unfold targets
  rw [List.mem_cons, or_iff_right hne]
  cases id with
  | none => simp
  | some id =>
      constructor
      · intro h
        dsimp only at h
        split at h
        · exact congrArg some (calcFile_injective (List.mem_singleton.mp h)).symm
        · cases h
      · intro h
        obtain rfl := Option.some.inj h
        simp [hsafe]

theorem nodup_targets (log : Log) (id : Option String) : (log.targets id).Nodup := by
  unfold targets
  split
  next id =>
    have hne : globalFile log.folder ≠ calcFile log.folder id := fun heq =>
      not_globalFile_prefix_calcFile log.folder id (heq ▸ List.prefix_rfl)
    split
    · simp [hne]
    · simp
  next => simp

/-- Appending to several files of a log extends each of them and no other. -/
theorem node?_appendEach {log : Log} {bytes : List UInt8} {paths : List Path} {path : Path}
    {tree written : FileTree} (hpaths : ∀ other ∈ paths, log.IsFile other) (hnodup : paths.Nodup)
    (hpath : log.IsFile path) (h : appendEach bytes paths tree = (written, none)) :
    written.node? path =
      if path ∈ paths then some (.file (tree.contents path ++ bytes)) else tree.node? path := by
  induction paths generalizing tree with
  | nil =>
      obtain ⟨rfl, -⟩ := Prod.mk.inj h
      rfl
  | cons first paths ih =>
      rw [List.forall_mem_cons] at hpaths
      obtain ⟨hnew, hrest⟩ := List.nodup_cons.mp hnodup
      obtain ⟨extended, hextended, hwritten⟩ := appendEach_cons_eq_none h
      rw [ih hpaths.2 hrest hwritten]
      by_cases hfirst : first = path
      · subst hfirst
        rw [if_neg hnew, if_pos List.mem_cons_self]
        exact node?_appendTo_self hextended hpath.isAncestor
      · have hother : extended.node? path = tree.node? path :=
          node?_appendTo_of_ne hextended (hpath.not_prefix hpaths.1 hfirst)
        simp [contents, hother, Ne.symm hfirst]

/-- A write that succeeds puts its line behind those of its files, and leaves the others alone. -/
theorem node?_write {log : Log} {event : Event} {id : Option String} {path : Path}
    {tree written : FileTree} (hpath : log.IsFile path)
    (h : log.write event id tree = (written, none)) :
    written.node? path =
      if path ∈ log.targets id then some (.file (tree.contents path ++ lineBytes event))
      else tree.node? path :=
  node?_appendEach (fun _ => isFile_of_mem_targets) (log.nodup_targets id) hpath (write_eq_none h).2

theorem contents_write {log : Log} {event : Event} {id : Option String} {path : Path}
    {tree written : FileTree} (hpath : log.IsFile path)
    (h : log.write event id tree = (written, none)) :
    written.contents path =
      tree.contents path ++ if path ∈ log.targets id then lineBytes event else [] := by
  rw [contents, node?_write hpath h]
  by_cases hmem : path ∈ log.targets id
  · rw [if_pos hmem, if_pos hmem]
  · rw [if_neg hmem, if_neg hmem, List.append_nil, contents]

/-- Appending a line to the files of an id puts it behind the bytes that these held. -/
theorem Holds.append {log : Log} {event : Event} {id : Option String} {path : Path}
    {bytes : List UInt8} {tree written : FileTree} (hpath : log.IsFile path)
    (hholds : tree.Holds path bytes)
    (h : appendEach (lineBytes event) (log.targets id) tree = (written, none)) :
    written.Holds path (bytes ++ if path ∈ log.targets id then lineBytes event else []) := by
  have hnode := node?_appendEach (fun _ => isFile_of_mem_targets) (log.nodup_targets id) hpath h
  split at hnode
  next hmem =>
    rw [if_pos hmem, ← hholds.contents_eq]
    exact .inl hnode
  next hmem =>
    rw [if_neg hmem, List.append_nil]
    exact hholds.congr hnode

theorem Records.append {log : Log} {entries : List (Event × Option String)}
    {tree written : FileTree} {event : Event} {id : Option String}
    (hrecords : log.Records entries tree)
    (h : appendEach (lineBytes event) (log.targets id) tree = (written, none)) :
    log.Records (entries ++ [(event, id)]) written := by
  constructor
  · have hglobal := Holds.append (.inl rfl) hrecords.holdsGlobal h
    rw [if_pos (log.globalFile_mem_targets id)] at hglobal
    simpa using hglobal
  · intro id' hsafe
    have hcalc := Holds.append (.inr ⟨id', hsafe, rfl⟩) (hrecords.holdsCalc id' hsafe) h
    rw [ofCalc_append, List.flatMap_append]
    by_cases hid : id = some id'
    · rw [if_pos ((calcFile_mem_targets_iff hsafe).mpr hid)] at hcalc
      rw [if_pos hid, List.flatMap_singleton]
      exact hcalc
    · rw [if_neg (mt (calcFile_mem_targets_iff hsafe).mp hid)] at hcalc
      rw [if_neg hid, List.flatMap_nil]
      exact hcalc

/-- A write that succeeds puts its line behind the lines of its files. -/
theorem Records.write {log : Log} {entries : List (Event × Option String)}
    {tree written : FileTree} {event : Event} {id : Option String}
    (hrecords : log.Records entries tree) (h : log.write event id tree = (written, none)) :
    log.Records (entries ++ [(event, id)]) written :=
  hrecords.append (write_eq_none h).2

/-! ## Runs of writes -/

/-- Write events with their calculation ids, if every write succeeds. -/
def writeEach (log : Log) : List (Event × Option String) → FileTree → Option FileTree
  | [], tree => some tree
  | (event, id) :: entries, tree =>
    match log.write event id tree with
    | (written, none) => writeEach log entries written
    | (_, some _) => none

theorem writeEach_append {log : Log} {first second : List (Event × Option String)}
    {tree written : FileTree} (h : log.writeEach first tree = some written) :
    log.writeEach (first ++ second) tree = log.writeEach second written := by
  induction first generalizing tree with
  | nil =>
      obtain rfl := Option.some.inj h
      rfl
  | cons entry first ih =>
      rcases entry with ⟨event, id⟩
      rw [Log.writeEach] at h
      rw [List.cons_append, Log.writeEach]
      split at h
      next => exact ih h
      next => cases h

theorem isWritable_of_writeEach {log : Log} {entries : List (Event × Option String)}
    {tree written : FileTree} (h : log.writeEach entries tree = some written) :
    ∀ entry ∈ entries, entry.1.IsWritable log.limits := by
  induction entries generalizing tree with
  | nil => exact List.forall_mem_nil _
  | cons entry entries ih =>
      rcases entry with ⟨event, id⟩
      rw [Log.writeEach] at h
      split at h
      next extended hwrite => exact List.forall_mem_cons.mpr ⟨(write_eq_none hwrite).1, ih h⟩
      next => cases h

/-- A run of writes puts the lines of its events behind what their files held. -/
theorem contents_writeEach {log : Log} {entries : List (Event × Option String)} {path : Path}
    {tree written : FileTree} (hpath : log.IsFile path)
    (h : log.writeEach entries tree = some written) :
    written.contents path = tree.contents path ++
      (entries.filter (path ∈ log.targets ·.2)).flatMap fun entry => lineBytes entry.1 := by
  induction entries generalizing tree with
  | nil =>
      obtain rfl := Option.some.inj h
      exact (List.append_nil _).symm
  | cons entry entries ih =>
      rcases entry with ⟨event, id⟩
      rw [Log.writeEach] at h
      split at h
      next extended hwrite =>
        rw [ih h, contents_write hpath hwrite, List.filter_cons]
        by_cases hmem : path ∈ log.targets id <;> simp [hmem]
      next => cases h

/-- After a run of writes the files hold the lines of all events written so far. -/
theorem Records.writeEach {log : Log} {done entries : List (Event × Option String)}
    {tree written : FileTree} (hrecords : log.Records done tree)
    (h : log.writeEach entries tree = some written) : log.Records (done ++ entries) written := by
  induction entries generalizing done tree with
  | nil =>
      cases h
      rw [List.append_nil]
      exact hrecords
  | cons entry entries ih =>
      rcases entry with ⟨event, id⟩
      rw [Log.writeEach] at h
      split at h
      next extended hwrite =>
        have hafter := ih (hrecords.write hwrite) h
        rw [List.append_assoc] at hafter
        exact hafter
      next => cases h

/-! ## A new log -/

theorem exists_of_create {tree opened : FileTree} {folder : Path} {tailBytes : Option Int}
    {limits : Limits} {log : Log}
    (h : Log.create tree folder tailBytes limits = .ok (opened, log)) :
    log = ⟨folder, tailBytes.getD defaultTailBytes, limits⟩ ∧
      ∃ made, tree.makeFolders (logFolder folder) = .ok made ∧
        made.makeFolders (calcFolder folder) = .ok opened := by
  simp only [Log.create, bind, Except.bind] at h
  split at h
  next => cases h
  next made hmade =>
    split at h
    next => cases h
    next opened' hopened =>
      cases h
      exact ⟨rfl, made, hmade, hopened⟩

theorem IsFile.not_prefix_calcFolder {log : Log} {path : Path} (h : log.IsFile path) :
    ¬ path <+: calcFolder log.folder := by
  rcases h with rfl | ⟨id, -, rfl⟩
  · exact not_globalFile_prefix_calcFolder _
  · exact not_calcFile_prefix_calcFolder _ id

/-- Creating a log leaves its files alone, if there are any. -/
theorem node?_create {log other : Log} {tree opened : FileTree} {tailBytes : Option Int}
    {limits : Limits} {path : Path} (hpath : log.IsFile path)
    (h : Log.create tree log.folder tailBytes limits = .ok (opened, other)) :
    opened.node? path = tree.node? path := by
  obtain ⟨-, made, hmade, hopened⟩ := exists_of_create h
  have hcalcs := hpath.not_prefix_calcFolder
  have hlogs : ¬ path <+: logFolder log.folder := fun hbelow =>
    hcalcs (hbelow.trans (List.prefix_append _ _))
  rw [node?_makeFolders hopened hcalcs, node?_makeFolders hmade hlogs]

theorem Records.create {log other : Log} {entries : List (Event × Option String)}
    {tree opened : FileTree} {tailBytes : Option Int} {limits : Limits}
    (hrecords : log.Records entries tree)
    (h : Log.create tree log.folder tailBytes limits = .ok (opened, other)) :
    log.Records entries opened := by
  constructor
  · exact hrecords.holdsGlobal.congr (node?_create (.inl rfl) h)
  · intro id hsafe
    exact (hrecords.holdsCalc id hsafe).congr (node?_create (.inr ⟨id, hsafe, rfl⟩) h)

/-- Nothing stands at the places of the files of a log in an empty folder. -/
theorem records_of_isEmptyFolder {log : Log} {tree : FileTree}
    (hempty : tree.IsEmptyFolder log.folder) : log.Records [] tree := by
  constructor
  · right
    have hfile : globalFile log.folder = log.folder ++ "logs" :: ["events.ndjson"] := by
      simp [globalFile, logFolder]
    rw [hfile]
    exact ⟨hempty _ _ (hfile ▸ isAncestor_globalFile log.folder), rfl⟩
  · intro id _
    right
    have hfile : calcFile log.folder id = log.folder ++ "logs" :: ["calcs", id ++ ".ndjson"] := by
      simp [calcFile, calcFolder, logFolder]
    rw [hfile]
    exact ⟨hempty _ _ (hfile ▸ isAncestor_calcFile log.folder id), rfl⟩

theorem records_of_create {tree opened : FileTree} {folder : Path} {tailBytes : Option Int}
    {limits : Limits} {log : Log} (hempty : tree.IsEmptyFolder folder)
    (h : Log.create tree folder tailBytes limits = .ok (opened, log)) : log.Records [] opened := by
  obtain ⟨rfl, -⟩ := exists_of_create h
  exact (records_of_isEmptyFolder hempty).create h

/-- After a run of writes to a new log its files hold the lines of all events of the run. -/
theorem records_of_writeEach {tree opened written : FileTree} {folder : Path}
    {tailBytes : Option Int} {limits : Limits} {log : Log}
    {entries : List (Event × Option String)} (hempty : tree.IsEmptyFolder folder)
    (hcreate : Log.create tree folder tailBytes limits = .ok (opened, log))
    (hwrite : log.writeEach entries opened = some written) :
    log.folder = folder ∧ log.Records entries written ∧
      ∀ entry ∈ entries, entry.1.IsWritable limits := by
  obtain ⟨rfl, -⟩ := exists_of_create hcreate
  exact ⟨rfl, (records_of_create hempty hcreate).writeEach hwrite, isWritable_of_writeEach hwrite⟩

end Log

end ColumnFormula
