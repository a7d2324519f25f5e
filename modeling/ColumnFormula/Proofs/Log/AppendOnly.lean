import ColumnFormula.Log.Project
import ColumnFormula.Proofs.Log.Tail

/-!
# Logs are only appended to

A project may be logged through any number of logs, and any append to a file of theirs may fail.
Whatever is written, each file is left as it is or one line is put at its end, and every line of a
calculation stands in the file of all events too: that file is appended to first, and if this
fails the line is not written at all.
-/

namespace ColumnFormula

/-! ## Appends that fail -/

namespace Log

open FileTree

/-- Append bytes to files, one after the other, up to the first that refuses, where some files
may refuse for causes of their own; nothing is written to them then. -/
def appendEachAmid (refusal : Path → Option FileError) (bytes : List UInt8) :
    List Path → FileTree → FileTree × Option FileError
  | [], tree => (tree, none)
  | path :: paths, tree =>
    match refusal path with
    | some error => (tree, some error)
    | none =>
      match appendTo tree path bytes with
      | .ok tree => appendEachAmid refusal bytes paths tree
      | .error error => (tree, some error)

/-- Write an event, where some files may refuse. -/
def writeAmid (refusal : Path → Option FileError) (log : Log) (event : Event)
    (calcId : Option String) (tree : FileTree) : FileTree × Option WriteError :=
  if event.isTooDeep log.limits.height || event.toJson.hasHugeInteger then (tree, some .tooDeep)
  else
    let (tree, refusal) := appendEachAmid refusal (Text.Utf8.encode (line event))
      (log.targets calcId) tree
    (tree, refusal.map .file)

theorem appendEachAmid_none (bytes : List UInt8) (paths : List Path) (tree : FileTree) :
    appendEachAmid (fun _ => none) bytes paths tree = appendEach bytes paths tree := by
  induction paths generalizing tree with
  | nil => rfl
  | cons path paths ih =>
      rw [appendEachAmid, appendEach]
      cases appendTo tree path bytes with
      | ok extended => exact ih extended
      | error error => rfl

/-- If no file refuses, this is how events are written. -/
theorem writeAmid_none (log : Log) (event : Event) (calcId : Option String) (tree : FileTree) :
    log.writeAmid (fun _ => none) event calcId tree = log.write event calcId tree := by
  rw [writeAmid, write, appendEachAmid_none]

/-- How far a log is read back makes no difference to where is written. -/
theorem targets_congr {log attached : Log} (h : attached.folder = log.folder)
    (calcId : Option String) : attached.targets calcId = log.targets calcId := by
  simp only [targets, h]

variable {log : Log} {event : Event} {tree written opened : FileTree}

/-- Up to the first refusal files are appended to as if none refused. -/
theorem exists_of_appendEachAmid (refusal : Path → Option FileError) (bytes : List UInt8)
    (paths : List Path) (tree : FileTree) :
    ∃ done, done <+: paths ∧
      appendEach bytes done tree = ((appendEachAmid refusal bytes paths tree).1, none) := by
  induction paths generalizing tree with
  | nil => exact ⟨[], List.prefix_rfl, rfl⟩
  | cons path paths ih =>
      rw [appendEachAmid]
      cases refusal path with
      | some error => exact ⟨[], List.nil_prefix, rfl⟩
      | none =>
          cases happend : appendTo tree path bytes with
          | error error => exact ⟨[], List.nil_prefix, rfl⟩
          | ok extended =>
              obtain ⟨done, hdone, hwritten⟩ := ih extended
              refine ⟨path :: done, List.cons_prefix_cons.mpr ⟨rfl, hdone⟩, ?_⟩
              rw [appendEach, happend]
              exact hwritten

theorem length_targets_le (log : Log) (calcId : Option String) :
    (log.targets calcId).length ≤ 2 := by
  unfold targets
  split
  · split <;> simp
  · simp

/-- The file of all events comes first, so what is written of an event at all is written as if
the event had this calculation id or none. -/
theorem eq_targets_of_prefix {calcId : Option String} {done : List Path}
    (h : done <+: log.targets calcId) : done = [] ∨ ∃ id, done = log.targets id := by
  cases done with
  | nil => exact .inl rfl
  | cons first done =>
      right
      cases done with
      | nil =>
          obtain ⟨rfl, -⟩ := List.cons_prefix_cons.mp h
          exact ⟨none, rfl⟩
      | cons second done =>
          refine ⟨calcId, h.eq_of_length_le ?_⟩
          exact Nat.le_trans (log.length_targets_le calcId) (by simp)

/-- What is left of a write is nothing, or the line of the event in the files of some id. -/
theorem writeAmid_cases (refusal : Path → Option FileError) (log : Log) (event : Event)
    (calcId : Option String) (tree : FileTree) :
    (log.writeAmid refusal event calcId tree).1 = tree ∨
      ∃ id, appendEach (lineBytes event) (log.targets id) tree =
        ((log.writeAmid refusal event calcId tree).1, none) := by
  unfold writeAmid
  split
  · exact .inl rfl
  · obtain ⟨done, hdone, happend⟩ :=
      exists_of_appendEachAmid refusal (lineBytes event) (log.targets calcId) tree
    rcases eq_targets_of_prefix hdone with rfl | ⟨id, rfl⟩
    · exact .inl (Prod.mk.inj happend).1.symm
    · exact .inr ⟨id, happend⟩

/-- The line of an event without its line feed. -/
def text (event : Event) : List UInt8 :=
  Text.Utf8.encode event.dump.write

theorem flatMap_lineBytes (events : List Event) :
    events.flatMap lineBytes = (events.map text).flatMap (· ++ [10]) := by
  rw [List.flatMap_map]
  exact congrArg (events.flatMap ·) (funext lineBytes_eq)

/-! ## What a tree goes on with -/

/-- Whether a tree goes on from another with at most one line, which is put at the end of some
files of a log. Nothing else changes, but folders may be made where nothing stood. -/
structure Extends (log : Log) (tree extended : FileTree) : Prop where
  files : ∃ text : List UInt8, 10 ∉ text ∧ ∀ path, log.IsFile path →
    extended.node? path = tree.node? path ∨
      ∃ bytes, tree.Holds path bytes ∧
        extended.node? path = some (.file (bytes ++ (text ++ [10])))
  others : ∀ path, ¬ log.IsFile path → tree.Keeps extended path

theorem Extends.refl (log : Log) (tree : FileTree) : log.Extends tree tree :=
  ⟨⟨[], List.not_mem_nil, fun _ _ => .inl rfl⟩, fun path _ => .refl tree path⟩

theorem Records.exists_holds {entries : List (Event × Option String)} {path : Path}
    (h : log.Records entries tree) (hpath : log.IsFile path) :
    ∃ bytes, tree.Holds path bytes := by
  rcases hpath with rfl | ⟨id, hsafe, rfl⟩
  · exact ⟨_, h.holdsGlobal⟩
  · exact ⟨_, h.holdsCalc id hsafe⟩

theorem keeps_of_appendEach {bytes : List UInt8} {paths : List Path} {other : Path}
    (hother : other ∉ paths) (h : appendEach bytes paths tree = (written, none)) :
    tree.Keeps written other := by
  induction paths generalizing tree with
  | nil =>
      obtain ⟨rfl, -⟩ := Prod.mk.inj h
      exact .refl _ other
  | cons path paths ih =>
      rw [List.mem_cons, not_or] at hother
      obtain ⟨extended, hextended, hwritten⟩ := appendEach_cons_eq_none h
      exact (keeps_of_appendTo hextended hother.1).trans (ih hother.2 hwritten)

theorem Records.extends_append {entries : List (Event × Option String)} {id : Option String}
    (hrecords : log.Records entries tree)
    (h : appendEach (lineBytes event) (log.targets id) tree = (written, none)) :
    log.Extends tree written := by
  refine ⟨⟨_, ten_not_mem_text event, fun path hpath => ?_⟩, fun path hpath => ?_⟩
  · have hnode := node?_appendEach (fun _ => isFile_of_mem_targets) (log.nodup_targets id) hpath h
    split at hnode
    · obtain ⟨bytes, hholds⟩ := hrecords.exists_holds hpath
      rw [hholds.contents_eq, lineBytes_eq] at hnode
      exact .inr ⟨bytes, hholds, hnode⟩
    · exact .inl hnode
  · exact keeps_of_appendEach (fun hmem => hpath (isFile_of_mem_targets hmem)) h

theorem extends_create {other : Log} {tailBytes : Option Int} {limits : Limits}
    (h : Log.create tree log.folder tailBytes limits = .ok (opened, other)) :
    log.Extends tree opened := by
  refine ⟨⟨[], List.not_mem_nil, fun path hpath => .inl (node?_create hpath h)⟩, fun path _ => ?_⟩
  obtain ⟨-, made, hmade, hopened⟩ := exists_of_create h
  exact (keeps_of_makeFolders hmade).trans (keeps_of_makeFolders hopened)

/-- A write, also by another log of the project, leaves the lines of the events that were written
so far, and its own at most. -/
theorem Records.writeAmid {entries : List (Event × Option String)} {attached : Log}
    (hrecords : log.Records entries tree) (hfolder : attached.folder = log.folder)
    (refusal : Path → Option FileError) (event : Event) (calcId : Option String) :
    log.Extends tree (attached.writeAmid refusal event calcId tree).1 ∧
      ∃ more, log.Records (entries ++ more) (attached.writeAmid refusal event calcId tree).1 := by
  rcases writeAmid_cases refusal attached event calcId tree with hsame | ⟨id, happend⟩
  · rw [hsame]
    exact ⟨.refl log tree, [], (List.append_nil entries).symm ▸ hrecords⟩
  · rw [targets_congr hfolder] at happend
    exact ⟨hrecords.extends_append happend, [(event, id)], hrecords.append happend⟩

end Log

/-! ## Runs -/

namespace Reporter

/-- Write an event to the attached log, where some files may refuse. -/
def writeAmid (refusal : Path → Option FileError) (reporter : Reporter) (event : Event)
    (calcId : Option String) : Reporter :=
  match reporter.log with
  | none => reporter
  | some log =>
    match log.writeAmid refusal event calcId reporter.tree with
    | (tree, none) => { reporter with tree }
    | (tree, some _) => { reporter with tree }.warn

def emitAmid (refusal : Path → Option FileError) (reporter : Reporter) (event : Event)
    (calcId : Option String) : Reporter :=
  match reporter.log with
  | none => reporter
  | some log =>
    match Redaction.redact? event.context log.limits.calls with
    | some context => reporter.writeAmid refusal { event with context } calcId
    | none => reporter.warn

def reportAmid (refusal : Path → Option FileError) (reporter : Reporter) (report : Report) :
    Reporter :=
  match Report.decodeFields report.encoded with
  | some fields =>
    reporter.writeAmid refusal
      (report.toEvent reporter.now (Redaction.redact report.context ++ fields)) report.calcId
  | none => if reporter.log.isNone then reporter else reporter.warn

theorem writeAmid_none (reporter : Reporter) (event : Event) (calcId : Option String) :
    reporter.writeAmid (fun _ => none) event calcId = reporter.write event calcId := by
  cases hlog : reporter.log with
  | none => simp [writeAmid, write, hlog]
  | some log =>
      rcases hresult : log.write event calcId reporter.tree with ⟨tree, _ | error⟩
      · simp [writeAmid, write, hlog, Log.writeAmid_none, hresult]
      · simp [writeAmid, write, hlog, Log.writeAmid_none, hresult]

/-- If there is a log, an event is written without what should not be kept, or cannot be redacted
and fails. -/
theorem emitAmid_cases (refusal : Path → Option FileError) (reporter : Reporter) (event : Event)
    (calcId : Option String) :
    (reporter.log = none ∧ reporter.emitAmid refusal event calcId = reporter) ∨
      ∃ log, reporter.log = some log ∧
        ((∃ context, Redaction.redact? event.context log.limits.calls = some context ∧
            reporter.emitAmid refusal event calcId =
              reporter.writeAmid refusal { event with context } calcId) ∨
          Redaction.redact? event.context log.limits.calls = none ∧
            reporter.emitAmid refusal event calcId = reporter.warn) := by
  cases hlog : reporter.log with
  | none => exact .inl ⟨rfl, by simp only [emitAmid, hlog]⟩
  | some log =>
      refine .inr ⟨log, rfl, ?_⟩
      cases hcontext : Redaction.redact? event.context log.limits.calls with
      | none => exact .inr ⟨rfl, by simp only [emitAmid, hlog, hcontext]⟩
      | some context => exact .inl ⟨context, rfl, by simp only [emitAmid, hlog, hcontext]⟩

theorem emitAmid_none (reporter : Reporter) (event : Event) (calcId : Option String) :
    reporter.emitAmid (fun _ => none) event calcId = reporter.emit event calcId := by
  cases hlog : reporter.log with
  | none => simp only [emitAmid, emit, hlog]
  | some log =>
      cases hcontext : Redaction.redact? event.context log.limits.calls with
      | none => simp only [emitAmid, emit, hlog, hcontext]
      | some context => simp only [emitAmid, emit, hlog, hcontext, writeAmid_none]

theorem reportAmid_none (reporter : Reporter) (report : Report) :
    reporter.reportAmid (fun _ => none) report = reporter.report report := by
  cases hfields : Report.decodeFields report.encoded with
  | none => simp [reportAmid, Reporter.report, hfields]
  | some fields => simp [reportAmid, Reporter.report, hfields, writeAmid_none]

/-- Something that is done with the logs of a project. -/
inductive Call where
  /-- A new log is created and attached. -/
  | attach (tailBytes : Option Int) (limits : Limits := .own)
  | detach
  /-- Time goes by. -/
  | pass (now : String) (clock : Binary64)
  /-- An event is written to one of the logs, attached or not. -/
  | write (tailBytes : Int) (event : Event) (calcId : Option String) (limits : Limits := .own)
  | emit (event : Event) (calcId : Option String)
  | report (report : Report)

/-- The reporter after a call in a project, where some files may refuse what is written. -/
def call (folder : Path) (refusal : Path → Option FileError) (reporter : Reporter) :
    Call → Reporter
  | .attach tailBytes limits =>
    match reporter.attach folder tailBytes limits with
    | .ok attached => attached
    | .error _ => reporter
  | .detach => reporter.detach
  | .pass now clock => { reporter with now, clock }
  | .write tailBytes event calcId limits =>
    { reporter with
      tree := (Log.writeAmid refusal ⟨folder, tailBytes, limits⟩ event calcId reporter.tree).1 }
  | .emit event calcId => reporter.emitAmid refusal event calcId
  | .report report => reporter.reportAmid refusal report

/-- The reporter after some calls, each with the files that refuse during it. -/
def callEach (folder : Path) (reporter : Reporter)
    (calls : List (Call × (Path → Option FileError))) : Reporter :=
  calls.foldl (fun reporter entry => reporter.call folder entry.2 entry.1) reporter

/-! ### What a run preserves -/

/-- What holds of a reporter in a project that began with some tree: the log that is attached is
one of the project, the files hold the lines of some events, and all else is as it was, folders
apart. -/
structure Keeps (log : Log) (initial : FileTree) (reporter : Reporter) : Prop where
  folder : ∀ attached, reporter.log = some attached → attached.folder = log.folder
  records : ∃ entries, log.Records entries reporter.tree
  others : ∀ path, ¬ log.IsFile path → initial.Keeps reporter.tree path

variable {log : Log} {initial : FileTree} {reporter : Reporter}

theorem tree_warn (reporter : Reporter) : reporter.warn.tree = reporter.tree := by
  unfold warn
  split <;> rfl

theorem log_warn (reporter : Reporter) : reporter.warn.log = reporter.log := by
  unfold warn
  split <;> rfl

/-- A call that only changes the tree keeps what holds of a reporter if the tree goes on with
records of events. -/
theorem Keeps.goOn (h : Keeps log initial reporter) {after : Reporter}
    (hlog : ∀ attached, after.log = some attached → attached.folder = log.folder)
    (hextends : log.Extends reporter.tree after.tree)
    (hrecords : ∃ entries, log.Records entries after.tree) :
    Keeps log initial after ∧ log.Extends reporter.tree after.tree :=
  ⟨⟨hlog, hrecords, fun path hpath => (h.others path hpath).trans (hextends.others path hpath)⟩,
    hextends⟩

theorem Keeps.stay (h : Keeps log initial reporter) {after : Reporter}
    (hlog : ∀ attached, after.log = some attached → attached.folder = log.folder)
    (htree : after.tree = reporter.tree) :
    Keeps log initial after ∧ log.Extends reporter.tree after.tree := by
  refine h.goOn hlog ?_ ?_
  · rw [htree]
    exact .refl log reporter.tree
  · rw [htree]
    exact h.records

theorem Keeps.writeAmid (h : Keeps log initial reporter) (refusal : Path → Option FileError)
    (event : Event) (calcId : Option String) :
    Keeps log initial (reporter.writeAmid refusal event calcId) ∧
      log.Extends reporter.tree (reporter.writeAmid refusal event calcId).tree := by
  obtain ⟨entries, hrecords⟩ := h.records
  cases hlog : reporter.log with
  | none =>
      refine h.stay ?_ ?_ <;> rw [Reporter.writeAmid, hlog]
      exact h.folder
  | some attached =>
      have hfolder := h.folder attached hlog
      obtain ⟨hextends, more, hmore⟩ := hrecords.writeAmid hfolder refusal event calcId
      have hafter : (reporter.writeAmid refusal event calcId).tree =
            (attached.writeAmid refusal event calcId reporter.tree).1 ∧
          (reporter.writeAmid refusal event calcId).log = some attached := by
        simp only [Reporter.writeAmid, hlog]
        split
        next tree heq =>
          rw [heq]
          exact ⟨rfl, rfl⟩
        next tree error heq =>
          rw [heq]
          exact ⟨tree_warn _, log_warn _⟩
      obtain ⟨htree, hkept⟩ := hafter
      refine h.goOn ?_ ?_ ?_
      · rw [hkept, ← hlog]
        exact h.folder
      · rw [htree]
        exact hextends
      · rw [htree]
        exact ⟨_, hmore⟩

theorem Keeps.warn (h : Keeps log initial reporter) :
    Keeps log initial reporter.warn ∧ log.Extends reporter.tree reporter.warn.tree := by
  refine h.stay ?_ (tree_warn reporter)
  rw [log_warn]
  exact h.folder

/-- What one call preserves. -/
theorem Keeps.call (h : Keeps log initial reporter) (call : Call)
    (refusal : Path → Option FileError) :
    Keeps log initial (reporter.call log.folder refusal call) ∧
      log.Extends reporter.tree (reporter.call log.folder refusal call).tree := by
  obtain ⟨entries, hrecords⟩ := h.records
  cases call with
  | attach tailBytes limits =>
      rw [Reporter.call, Reporter.attach]
      cases hcreate : Log.create reporter.tree log.folder tailBytes limits with
      | error error => exact h.stay h.folder rfl
      | ok created =>
          obtain ⟨opened, other⟩ := created
          obtain ⟨rfl, -⟩ := Log.exists_of_create hcreate
          refine h.goOn ?_ (Log.extends_create hcreate) ⟨_, hrecords.create hcreate⟩
          rintro attached ⟨rfl⟩
          rfl
  | detach => exact h.stay (fun _ hnone => nomatch hnone) rfl
  | pass now clock => exact h.stay h.folder rfl
  | write tailBytes event calcId limits =>
      have hfolder : (Log.mk log.folder tailBytes limits).folder = log.folder := rfl
      obtain ⟨hextends, more, hmore⟩ := hrecords.writeAmid hfolder refusal event calcId
      exact h.goOn h.folder hextends ⟨_, hmore⟩
  | emit event calcId =>
      rw [Reporter.call]
      rcases reporter.emitAmid_cases refusal event calcId with
        ⟨-, hemit⟩ | ⟨attached, -, ⟨context, -, hemit⟩ | ⟨-, hemit⟩⟩
      · rw [hemit]
        exact h.stay h.folder rfl
      · rw [hemit]
        exact h.writeAmid refusal _ calcId
      · rw [hemit]
        exact h.warn
  | report report =>
      rw [Reporter.call, reportAmid]
      split
      next => exact h.writeAmid refusal _ _
      next =>
        split
        · exact h.stay h.folder rfl
        · exact h.warn

/-- What a whole run preserves. -/
theorem Keeps.callEach (h : Keeps log initial reporter)
    (calls : List (Call × (Path → Option FileError))) :
    Keeps log initial (reporter.callEach log.folder calls) := by
  induction calls generalizing reporter with
  | nil => exact h
  | cons first calls ih => exact ih (h.call first.1 first.2).1

theorem keeps_start {log : Log} {tree : FileTree} (hempty : tree.IsEmptyFolder log.folder)
    (now : String) (clock : Binary64) : Keeps log tree (start tree now clock) where
  folder _ hnone := nomatch hnone
  records := ⟨[], Log.records_of_isEmptyFolder hempty⟩
  others path _ := .refl tree path

/-- There is no file of a calculation whose id is not safe. -/
theorem Keeps.contents_calcFile (h : Keeps log initial reporter)
    (hempty : initial.IsEmptyFolder log.folder) {id : String} (hsafe : ¬ Log.isSafeId id = true) :
    reporter.tree.contents (Log.calcFile log.folder id) = [] := by
  have hnone : initial.node? (Log.calcFile log.folder id) = none := by
    have hpath : Log.calcFile log.folder id =
        log.folder ++ "logs" :: ["calcs", id ++ ".ndjson"] := by
      simp [Log.calcFile, Log.calcFolder, Log.logFolder]
    rw [hpath]
    exact hempty _ _ (hpath ▸ Log.isAncestor_calcFile log.folder id)
  have hfile : ¬ log.IsFile (Log.calcFile log.folder id) := by
    rintro (heq | ⟨id', hsafe', heq⟩)
    · exact Log.not_calcFile_prefix_globalFile log.folder id (heq ▸ List.prefix_rfl)
    · exact hsafe (Log.calcFile_injective heq ▸ hsafe')
  unfold FileTree.contents
  rcases h.others _ hfile with hsame | ⟨-, hfolder⟩
  · rw [hsame, hnone]
  · rw [hfolder]

/-- After any calls in a project that began empty, whichever appends failed, the next call puts
at most one line at the end of files of the log and changes no other file, and the lines of every
calculation are among those of all events, in their order. As a call may end before the append
to its second file, this is so between the two appends as well. -/
theorem append_only (log : Log) {tree : FileTree} (hempty : tree.IsEmptyFolder log.folder)
    (now : String) (clock : Binary64) (calls : List (Call × (Path → Option FileError))) :
    let reporter := (start tree now clock).callEach log.folder calls
    (∀ call refusal,
      log.Extends reporter.tree (reporter.call log.folder refusal call).tree) ∧
    ∃ lines : List (List UInt8), (∀ line ∈ lines, 10 ∉ line) ∧
      reporter.tree.contents (Log.globalFile log.folder) = lines.flatMap (· ++ [10]) ∧
      ∀ id, ∃ kept : List (List UInt8), kept.Sublist lines ∧
        reporter.tree.contents (Log.calcFile log.folder id) = kept.flatMap (· ++ [10]) := by
  have hkeeps := (keeps_start hempty now clock).callEach calls
  refine ⟨fun call refusal => (hkeeps.call call refusal).2, ?_⟩
  obtain ⟨entries, hrecords⟩ := hkeeps.records
  refine ⟨(entries.map Prod.fst).map Log.text, ?_, ?_, fun id => ?_⟩
  · intro line hline
    obtain ⟨event, -, rfl⟩ := List.mem_map.mp hline
    exact Log.ten_not_mem_text event
  · rw [hrecords.holdsGlobal.contents_eq, Log.flatMap_lineBytes]
  · by_cases hsafe : Log.isSafeId id = true
    · refine ⟨(Log.ofCalc id entries).map Log.text, (List.filter_sublist.map _).map _, ?_⟩
      rw [(hrecords.holdsCalc id hsafe).contents_eq, Log.flatMap_lineBytes]
    · exact ⟨[], List.nil_sublist _, hkeeps.contents_calcFile hempty hsafe⟩

/-- An event whose second append fails is followed by the same event, written by another log. So
the line is twice among those of all events and once among those of the calculation. -/
theorem append_only_refused :
    let event : Event := ⟨1, "t", .info, .formulaSet, [], "m", none⟩
    let refusal : Path → Option FileError := fun path =>
      if path = Log.calcFile [] "c" then some .isFolder else none
    let calls : List (Call × (Path → Option FileError)) :=
      [(.attach none, fun _ => none), (.emit event (some "c"), refusal),
        (.write 10 event (some "c"), fun _ => none)]
    let reporter := (start .empty "t" .zero).callEach [] calls
    (FileTree.empty.IsEmptyFolder [] ∧
      reporter.tree.contents (Log.globalFile []) =
        [Log.text event, Log.text event].flatMap (· ++ [10]) ∧
      reporter.tree.contents (Log.calcFile [] "c") = [Log.text event].flatMap (· ++ [10])) ∧
    (∀ call refusal, Log.Extends ⟨[], Log.defaultTailBytes, .own⟩ reporter.tree
      (reporter.call [] refusal call).tree) ∧
    ∃ lines : List (List UInt8), (∀ line ∈ lines, 10 ∉ line) ∧
      reporter.tree.contents (Log.globalFile []) = lines.flatMap (· ++ [10]) ∧
      ∀ id, ∃ kept : List (List UInt8), kept.Sublist lines ∧
        reporter.tree.contents (Log.calcFile [] id) = kept.flatMap (· ++ [10]) := by
  intro event refusal calls reporter
  exact ⟨⟨Log.isEmptyFolder_empty [], by decide +kernel, by decide +kernel⟩,
    append_only ⟨[], Log.defaultTailBytes, .own⟩ (Log.isEmptyFolder_empty []) "t" .zero calls⟩

end Reporter

end ColumnFormula
