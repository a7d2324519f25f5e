import ColumnFormula.CommandLine
import ColumnFormula.Proofs.Json.RoundTrip
import ColumnFormula.Proofs.Log.Limits
import ColumnFormula.Proofs.Log.Records

/-!
# Showing the log of a project

The command `logs` makes a log of its own and reads it as far from its end as is read if nothing
else is asked for, whatever the settings of the project say. So it shows what a query of the log
gives that the settings ask for if and only if both windows leave equally many events to be shown,
as they do where both hold all of the file.
-/

namespace ColumnFormula

namespace Log

/-- Whether some bytes are lines, each with an object, nested no deeper than values may be, and a
line feed at its end. -/
structure IsObjectLines (depth : Nat) (bytes : List UInt8) : Prop where
  closed : bytes = [] ∨ bytes.getLast? = some 10
  objects : ∀ text ∈ lineTexts bytes,
    ∃ value, Json.ofChars text depth = .ok value ∧ value.isObj = true

/-- The values in a window of a log file that pass both filters, the newest first. -/
def found (depth : Nat) (tailBytes : Int) (level kind : Option String) (bytes : List UInt8) :
    List Json :=
  (((lineTexts (tail tailBytes bytes)).filterMap (value? depth)).filter
    (IsSelected level kind ·)).reverse

/-- How many of so many values a limit leaves. -/
def countWithin (limit : Int) (count : Nat) : Nat :=
  if 0 ≤ limit then min (min limit maxLimit).toNat count else count - limit.natAbs

variable {depth : Nat} {limits : Limits} {bytes : List UInt8} {level kind : Option String}
  {limit : Int}

/-! ## Limits on two lists -/

/-- Of two lists of which one begins the other, a limit leaves the same if and only if it leaves
equally many. -/
theorem takeLimit_eq_takeLimit_iff {first second : List Json}
    (h : first <+: second ∨ second <+: first) :
    takeLimit limit first = takeLimit limit second ↔
      countWithin limit first.length = countWithin limit second.length := by
  have hlength (values : List Json) :
      (takeLimit limit values).length = countWithin limit values.length :=
    length_takeLimit limit values
  rw [← hlength, ← hlength]
  refine ⟨congrArg List.length, fun heq => ?_⟩
  have hfirst := isPrefix_takeLimit limit first
  have hsecond := isPrefix_takeLimit limit second
  rcases h with h | h
  · exact (List.prefix_of_prefix_length_le (hfirst.trans h) hsecond heq.le).eq_of_length heq
  · exact (List.prefix_of_prefix_length_le hfirst (hsecond.trans h) heq.le).eq_of_length heq

/-! ## Windows on lines of objects -/

theorem isPrefix_found (hlines : IsObjectLines depth bytes) {near far : Int} (hfar : near ≤ far) :
    found depth near level kind bytes <+: found depth far level kind bytes := by
  unfold found
  rw [List.reverse_prefix]
  exact ((lineTexts_tail_suffix hlines.closed hfar).filterMap (value? depth)).filter _

theorem found_eq_of_length_le {tailBytes : Int} (h : bytes.length ≤ tailBytes) :
    found depth tailBytes level kind bytes = found depth bytes.length level kind bytes := by
  unfold found tail
  rw [if_pos h, if_pos (Int.le_refl _)]

theorem IsObjectLines.exists_of_mem_tail (hlines : IsObjectLines depth bytes) {tailBytes : Int}
    {text : List Char} (htext : text ∈ lineTexts (tail tailBytes bytes)) :
    ∃ value, Json.ofChars text depth = .ok value ∧ value.isObj = true := by
  have hfull : tail (max tailBytes bytes.length) bytes = bytes := if_pos (by omega)
  have hsuffix := lineTexts_tail_suffix hlines.closed (Int.le_max_left tailBytes bytes.length)
  rw [hfull] at hsuffix
  exact hlines.objects text (hsuffix.mem htext)

/-- A query of lines of objects gives what is found in its window, up to its limit, and fails only
if the window begins at no position. -/
theorem readGlobal_eq_ok_iff_of_lines {folder : Path} {tree : FileTree} {tailBytes : Int}
    {events : List Json} (hfile : tree.find (globalFile folder) = .ok (some (.file bytes)))
    (hlines : IsObjectLines limits.depth bytes) :
    readGlobal ⟨folder, tailBytes, limits⟩ level kind limit tree = .ok events ↔
      bytes.length - tailBytes ≤ maxPosition ∧
        events = takeLimit limit (found limits.depth tailBytes level kind bytes) := by
  have hpassable : ∀ text ∈ lineTexts (tail tailBytes bytes), IsPassable limits.depth text := by
    intro text htext error herror
    obtain ⟨value, hvalue, -⟩ := hlines.exists_of_mem_tail htext
    rw [hvalue] at herror
    cases herror
  have hobjects : ∀ value ∈ (lineTexts (tail tailBytes bytes)).filterMap (value? limits.depth),
      value.isObj = true := by
    intro value hvalue
    obtain ⟨text, htext, hvalue⟩ := List.mem_filterMap.mp hvalue
    obtain ⟨object, hobject, hisObj⟩ := hlines.exists_of_mem_tail htext
    rw [value?, hobject] at hvalue
    rwa [← Option.some.inj hvalue]
  have hquery (hposition : bytes.length - tailBytes ≤ maxPosition) :
      readGlobal ⟨folder, tailBytes, limits⟩ level kind limit tree =
        .ok (takeLimit limit (found limits.depth tailBytes level kind bytes)) :=
    readGlobal_of_objects ((readFile_eq_ok_iff hfile).mpr ⟨⟨hposition, hpassable⟩, rfl⟩) hobjects
  constructor
  · intro h
    obtain ⟨full, hread⟩ := exists_readFile_of_readGlobal h
    have hposition := ((readFile_eq_ok_iff hfile).mp hread).1.1
    rw [hquery hposition] at h
    exact ⟨hposition, (Except.ok.inj h).symm⟩
  · rintro ⟨hposition, rfl⟩
    exact hquery hposition

/-! ## Opening a log -/

/-- Where a log is made, one that is read through another window could have been made. -/
theorem create_eq_ok {tree opened : FileTree} {folder : Path} {tailBytes : Option Int} {log : Log}
    (h : Log.create tree folder tailBytes limits = .ok (opened, log)) (other : Option Int) :
    Log.create tree folder other limits =
      .ok (opened, ⟨folder, other.getD defaultTailBytes, limits⟩) := by
  obtain ⟨-, made, hmade, hopened⟩ := exists_of_create h
  rw [Log.create, hmade]
  simp only [bind, Except.bind, hopened]

theorem find_create {tree opened : FileTree} {folder : Path} {tailBytes : Option Int} {log : Log}
    (h : Log.create tree folder tailBytes limits = .ok (opened, log)) :
    opened.find (globalFile folder) = tree.find (globalFile folder) := by
  have hpath : IsFile ⟨folder, defaultTailBytes, limits⟩ (globalFile folder) := .inl rfl
  have hnode := node?_create hpath h
  rw [FileTree.find, FileTree.find, hnode]

end Log

section Opening

variable {reporter : Reporter} {folder : Path} {read : Config.Reader} {limits : Limits}

/-- A log is attached that the settings of the project ask for. -/
theorem Reporter.exists_of_openProject {opened : Reporter} {log : Log}
    (h : reporter.openProject folder read limits = .ok opened) (hlog : opened.log = some log) :
    ∃ config tailBytes, Config.load reporter.tree folder read = .ok config ∧
      config.tailBytes = .ok tailBytes ∧
      Log.create reporter.tree folder tailBytes limits = .ok (opened.tree, log) := by
  unfold openProject at h
  split at h
  next => cases h
  next config hconfig =>
    split at h
    next =>
      split at h
      next => cases h
      next tailBytes htailBytes =>
        rw [attach] at h
        cases hcreate : Log.create reporter.tree folder tailBytes limits with
        | error error =>
            rw [hcreate] at h
            cases h
        | ok made =>
            obtain ⟨tree, made⟩ := made
            rw [hcreate] at h
            cases h
            obtain rfl := Option.some.inj hlog
            exact ⟨config, tailBytes, hconfig, htailBytes, hcreate⟩
    next =>
      cases h
      cases hlog

/-- The log is attached as soon as the settings can be read and the folders made. -/
theorem Reporter.openProject_eq_ok {tree : FileTree} {tailBytes : Option Int} {log : Log}
    (hsettings : (Config.load reporter.tree folder read).toOption.map (fun config =>
      (config.isOn "logging_enabled", config.tailBytes.toOption)) = some (true, some tailBytes))
    (hcreate : Log.create reporter.tree folder tailBytes limits = .ok (tree, log)) :
    reporter.openProject folder read limits = .ok { reporter with tree, log := some log } := by
  cases hload : Config.load reporter.tree folder read with
  | error error =>
      rw [hload] at hsettings
      cases hsettings
  | ok config =>
      rw [hload] at hsettings
      obtain ⟨hon, htail⟩ := Prod.mk.inj (Option.some.inj hsettings)
      have htailBytes : config.tailBytes = .ok tailBytes := by
        cases h : config.tailBytes with
        | error error =>
            rw [h] at htail
            cases htail
        | ok other =>
            rw [h] at htail
            exact congrArg Except.ok (Option.some.inj htail)
      rw [openProject, hload]
      dsimp only
      rw [if_pos hon, htailBytes]
      dsimp only
      rw [attach, hcreate]
      rfl

end Opening

namespace CommandLine

open Log

/-! ## The command -/

theorem run_of_readGlobal {surroundings : Surroundings} {args : List String} {folder : Path}
    {level kind : Option String} {limit : Int} {opened : FileTree} {log : Log}
    {bytes : List UInt8} {events : List Json}
    (hcommand : surroundings.readCommand surroundings.tree args =
      some (.logs folder level kind limit true))
    (hfile : surroundings.tree.find (globalFile folder) = .ok (some (.file bytes)))
    (hcreate : Log.create surroundings.tree folder none surroundings.limits = .ok (opened, log))
    (hevents : log.readGlobal level kind limit opened = .ok events) :
    run surroundings args = (opened, succeed (Json.arr events).toIndentedText) := by
  have hnode : surroundings.tree.node? (globalFile folder) = some (.file bytes) := by
    unfold FileTree.find at hfile
    split at hfile
    next => cases hfile
    next => exact Except.ok.inj hfile
  rw [run, hcommand]
  dsimp only
  rw [runLogs, hnode, if_neg (by simp), hcreate]
  dsimp only
  rw [hevents]
  rfl

/-- The command `logs` prints what a query gives that reads the log through the default window,
whatever reads its arguments. The log that the settings ask for, whatever reads them, gives the
same events if and only if its own window leaves equally many of them to be shown, as it does where
both windows hold all of the file; it gives none if its window would begin at no position. -/
theorem run_logs {surroundings : Surroundings} {args : List String} {folder : Path}
    {level kind : Option String} {limit : Int} {read : Config.Reader} {reporter opened : Reporter}
    {log : Log} {bytes : List UInt8}
    (hcommand : surroundings.readCommand surroundings.tree args =
      some (.logs folder level kind limit true))
    (htree : reporter.tree = surroundings.tree)
    (hopen : reporter.openProject folder read surroundings.limits = .ok opened)
    (hlog : opened.log = some log)
    (hfile : surroundings.tree.find (globalFile folder) = .ok (some (.file bytes)))
    (hlines : IsObjectLines surroundings.limits.depth bytes) (hsize : bytes.length ≤ maxPosition) :
    ∃ config tailBytes shown,
      Config.load surroundings.tree folder read = .ok config ∧ config.tailBytes = .ok tailBytes ∧
      log = ⟨folder, tailBytes.getD defaultTailBytes, surroundings.limits⟩ ∧
      run surroundings args = (opened.tree, succeed (Json.arr shown).toIndentedText) ∧
      readGlobal ⟨folder, defaultTailBytes, surroundings.limits⟩ level kind limit opened.tree =
        .ok shown ∧
      ((∃ events, log.readGlobal level kind limit opened.tree = .ok events) ↔
        bytes.length - log.tailBytes ≤ maxPosition) ∧
      ∀ events, log.readGlobal level kind limit opened.tree = .ok events →
        (events = shown ↔
          countWithin limit (found log.limits.depth log.tailBytes level kind bytes).length =
            countWithin limit
              (found log.limits.depth defaultTailBytes level kind bytes).length) ∧
        (bytes.length ≤ log.tailBytes → bytes.length ≤ defaultTailBytes → events = shown) := by
  obtain ⟨config, tailBytes, hconfig, htailBytes, hcreate⟩ :=
    Reporter.exists_of_openProject hopen hlog
  rw [htree] at hconfig hcreate
  obtain ⟨rfl, -⟩ := exists_of_create hcreate
  have hopened := (find_create hcreate).trans hfile
  have hquery {window : Int} {events : List Json} :
      readGlobal ⟨folder, window, surroundings.limits⟩ level kind limit opened.tree = .ok events ↔
        bytes.length - window ≤ maxPosition ∧
          events = takeLimit limit (found surroundings.limits.depth window level kind bytes) :=
    readGlobal_eq_ok_iff_of_lines hopened hlines
  have hdefault : 0 ≤ defaultTailBytes := by decide
  have hshown : readGlobal ⟨folder, defaultTailBytes, surroundings.limits⟩ level kind limit
        opened.tree =
      .ok (takeLimit limit (found surroundings.limits.depth defaultTailBytes level kind bytes)) :=
    hquery.mpr ⟨by omega, rfl⟩
  refine ⟨config, tailBytes, _, hconfig, htailBytes, rfl,
    run_of_readGlobal hcommand hfile (create_eq_ok hcreate none) hshown, hshown, ?_, ?_⟩
  · simp only [hquery, exists_and_left, exists_eq, and_true]
  · intro events hevents
    obtain ⟨-, rfl⟩ := hquery.mp hevents
    constructor
    · apply takeLimit_eq_takeLimit_iff
      rcases Int.le_total (tailBytes.getD defaultTailBytes) defaultTailBytes with hle | hle
      · exact .inl (isPrefix_found hlines hle)
      · exact .inr (isPrefix_found hlines hle)
    · intro hall hdefault
      rw [found_eq_of_length_le hall, found_eq_of_length_le hdefault]

/-! ## A project with a short window -/

theorem folderPath?_dot (tree : FileTree) : Command.folderPath? tree "." = some [] := by
  have hnames : ".".splitOn "/" = ["."] := by
    rw [String.splitOn, if_neg (by decide), String.splitOnAux, if_neg (by decide +kernel)]
    dsimp only
    rw [if_neg (by decide +kernel), String.splitOnAux, if_pos (by decide +kernel)]
    decide +kernel
  rw [Command.folderPath?, Command.path?, hnames]
  rfl

/-- The working folder as a project, with its settings and its log. -/
def projectFiles (settings events : String) : FileTree :=
  ⟨[([Config.fileName], .file (Text.Utf8.encode settings.toList)), (logFolder [], .folder),
    (globalFile [], .file (Text.Utf8.encode events.toList)), (calcFolder [], .folder)]⟩

theorem create_projectFiles (settings events : String) (tailBytes : Option Int) :
    Log.create (projectFiles settings events) [] tailBytes =
      .ok (projectFiles settings events, ⟨[], tailBytes.getD defaultTailBytes, .own⟩) := rfl

theorem load_projectFiles (settings events : String) :
    Config.load (projectFiles settings events) [] =
      Config.ofBytes (Text.Utf8.encode settings.toList) := rfl

theorem find_projectFiles (settings events : String) :
    (projectFiles settings events).find (globalFile []) =
      .ok (some (.file (Text.Utf8.encode events.toList))) := rfl

theorem open_projectFiles {settings : String} {tailBytes : Option Int} (events : String)
    (hsettings : (Config.ofBytes (Text.Utf8.encode settings.toList)).toOption.map (fun config =>
      (config.isOn "logging_enabled", config.tailBytes.toOption)) = some (true, some tailBytes)) :
    (Reporter.start (projectFiles settings events) "" .zero).openProject [] =
      .ok { Reporter.start (projectFiles settings events) "" .zero with
        log := some ⟨[], tailBytes.getD defaultTailBytes, .own⟩ } := by
  rw [← load_projectFiles settings events] at hsettings
  exact Reporter.openProject_eq_ok hsettings (create_projectFiles settings events tailBytes)

/-- An event with one number in it. -/
def numbered (key : String) (n : Int) : Json :=
  .obj [(key, .int n)]

theorem ofChars_numbered {key : String} {n : Int} {text : String}
    (hdigits : (numbered key n).hasHugeInteger = false)
    (htext : (numbered key n).write = text.toList) :
    Json.ofChars text.toList Limits.own.depth = .ok (numbered key n) := by
  have hkeys : (numbered key n).HasUniqueKeys := by
    simp [numbered, Json.HasUniqueKeys, Json.FieldsHaveUniqueKeys]
  have hheight : (numbered key n).height = 1 := rfl
  rw [← htext]
  exact Json.ofChars_write hkeys hdigits (by rw [hheight]; decide)

/-- Of two events the window of the settings holds the newer one, which is all that is shown. -/
theorem run_logs_newest :
    let events := "\x7b\"a\": 1\x7d\n\x7b\"b\": 2\x7d\n"
    let tree := projectFiles "logging_tail_bytes: 12\n" events
    let reporter := Reporter.start tree "" .zero
    let surroundings : Surroundings := { tree, input := "", now := "", clock := .zero }
    reporter.openProject [] = .ok { reporter with log := some ⟨[], 12, .own⟩ } ∧
      IsObjectLines Limits.own.depth (Text.Utf8.encode events.toList) ∧
      readGlobal ⟨[], 12, .own⟩ none none 1 tree = .ok [numbered "b" 2] ∧
      run surroundings ["logs", "--limit", "1", "--json"] =
        (tree, succeed (Json.arr [numbered "b" 2]).toIndentedText) := by
  intro events tree reporter surroundings
  have hcommand : surroundings.readCommand surroundings.tree ["logs", "--limit", "1", "--json"] =
      (Command.folderPath? tree ".").bind fun folder => some (.logs folder none none 1 true) := rfl
  rw [folderPath?_dot] at hcommand
  have hsettings :
      (Config.ofBytes (Text.Utf8.encode "logging_tail_bytes: 12\n".toList)).toOption.map
        (fun config => (config.isOn "logging_enabled", config.tailBytes.toOption)) =
          some (true, some (some 12)) := by
    decide +kernel
  have hopen : reporter.openProject [] = .ok { reporter with log := some ⟨[], 12, .own⟩ } :=
    open_projectFiles events hsettings
  have hfirst : Json.ofChars "\x7b\"a\": 1\x7d".toList Limits.own.depth = .ok (numbered "a" 1) :=
    ofChars_numbered rfl (by decide +kernel)
  have hsecond : Json.ofChars "\x7b\"b\": 2\x7d".toList Limits.own.depth = .ok (numbered "b" 2) :=
    ofChars_numbered rfl (by decide +kernel)
  have hfar : lineTexts (tail defaultTailBytes (Text.Utf8.encode events.toList)) =
      ["\x7b\"a\": 1\x7d".toList, "\x7b\"b\": 2\x7d".toList] := by
    decide +kernel
  have hnear : lineTexts (tail 12 (Text.Utf8.encode events.toList)) =
      ["\x7b\"b\": 2\x7d".toList] := by
    decide +kernel
  have hlines : IsObjectLines Limits.own.depth (Text.Utf8.encode events.toList) := by
    have hfull : tail defaultTailBytes (Text.Utf8.encode events.toList) =
        Text.Utf8.encode events.toList := by
      decide +kernel
    refine ⟨.inr (by decide +kernel), ?_⟩
    rw [← hfull, hfar, List.forall_mem_cons, List.forall_mem_singleton]
    exact ⟨⟨_, hfirst, rfl⟩, _, hsecond, rfl⟩
  have hnewest : found Limits.own.depth 12 none none (Text.Utf8.encode events.toList) =
      [numbered "b" 2] := by
    rw [found, hnear, List.filterMap_cons, value?, hsecond]
    rfl
  have hboth : found Limits.own.depth defaultTailBytes none none (Text.Utf8.encode events.toList) =
      [numbered "b" 2, numbered "a" 1] := by
    rw [found, hfar, List.filterMap_cons, value?, hfirst, List.filterMap_cons, value?, hsecond]
    rfl
  have hevents : readGlobal ⟨[], 12, .own⟩ none none 1 tree = .ok [numbered "b" 2] := by
    apply (readGlobal_eq_ok_iff_of_lines (find_projectFiles _ events) hlines).mpr
    rw [hnewest]
    exact ⟨by decide +kernel, rfl⟩
  have hcount : countWithin 1
      (found Limits.own.depth 12 none none (Text.Utf8.encode events.toList)).length =
        countWithin 1 (found Limits.own.depth defaultTailBytes none none
          (Text.Utf8.encode events.toList)).length := by
    rw [hnewest, hboth]
    rfl
  obtain ⟨-, -, shown, -, -, -, hrun, -, -, hsame⟩ :=
    run_logs hcommand rfl hopen rfl (find_projectFiles _ events) hlines (by decide +kernel)
  obtain rfl := (hsame _ hevents).1.mpr hcount
  exact ⟨hopen, hlines, hevents, hrun⟩

/-- An event that the window of the settings does not hold is shown. -/
theorem run_logs_shortWindow :
    let events := "\x7b\"a\": 1\x7d\n"
    let tree := projectFiles "logging_tail_bytes: 5\n" events
    let reporter := Reporter.start tree "" .zero
    reporter.openProject [] = .ok { reporter with log := some ⟨[], 5, .own⟩ } ∧
      readGlobal ⟨[], 5, .own⟩ none none 50 tree = .ok [] ∧
      run { tree, input := "", now := "", clock := .zero } ["logs", "--project", ".", "--json"] =
        (tree, succeed (Json.arr [numbered "a" 1]).toIndentedText) ∧
      succeed (Json.arr [numbered "a" 1]).toIndentedText ≠
        succeed (Json.arr []).toIndentedText := by
  intro events tree reporter
  have hargs : Command.ofArgs? tree ["logs", "--project", ".", "--json"] =
      (Command.folderPath? tree ".").bind fun folder => some (.logs folder none none 50 true) := rfl
  rw [folderPath?_dot] at hargs
  have hsettings :
      (Config.ofBytes (Text.Utf8.encode "logging_tail_bytes: 5\n".toList)).toOption.map
        (fun config => (config.isOn "logging_enabled", config.tailBytes.toOption)) =
          some (true, some (some 5)) := by
    decide +kernel
  have hline : Json.ofChars "\x7b\"a\": 1\x7d".toList Limits.own.depth = .ok (numbered "a" 1) :=
    ofChars_numbered rfl (by decide +kernel)
  have hread (tailBytes : Int)
      (hposition : ¬ maxPosition < (Text.Utf8.encode events.toList).length - tailBytes) :
      readFile ⟨[], tailBytes, .own⟩ (globalFile []) tree =
        valuesOf Limits.own.depth
          (lineTexts (tail tailBytes (Text.Utf8.encode events.toList))) := by
    rw [readFile_file (find_projectFiles _ events), Log.values, if_neg hposition]
  have hnear : lineTexts (tail 5 (Text.Utf8.encode events.toList)) = [] := by
    decide +kernel
  have hfar : lineTexts (tail defaultTailBytes (Text.Utf8.encode events.toList)) =
      ["\x7b\"a\": 1\x7d".toList] := by
    decide +kernel
  have hnone : readGlobal ⟨[], 5, .own⟩ none none 50 tree = .ok [] := by
    rw [readGlobal, hread 5 (by decide +kernel), hnear]
    rfl
  have hshown : readGlobal ⟨[], defaultTailBytes, .own⟩ none none 50 tree =
      .ok [numbered "a" 1] := by
    rw [readGlobal, hread defaultTailBytes (by decide +kernel), hfar, valuesOf, hline]
    rfl
  exact ⟨open_projectFiles events hsettings, hnone,
    run_of_readGlobal hargs (find_projectFiles _ events) (create_projectFiles _ events none) hshown,
    by decide +kernel⟩

end CommandLine

end ColumnFormula
