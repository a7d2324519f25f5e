import Mathlib.Data.List.Forall2
import ColumnFormula.Proofs.Log.Filters
import ColumnFormula.Proofs.Log.Records

/-!
# The log gives back what was written

As long as a file is not longer than the end of it that is read, reading it gives the values
of all events that were written to it. A query gives those that pass its filters, the newest
first and no more than its limit, and the query for a calculation those that were written with
its id, the oldest first. An id of more than 248 characters makes a name that no file can have.
-/

namespace ColumnFormula

namespace Event

/-- Whether a filter asks for a text; an empty one asks for nothing. -/
def isAskedFor (filter : Option String) (text : String) : Bool :=
  match filter with
  | none => true
  | some wanted => wanted.isEmpty || wanted == text

/-- Whether an event passes the filters for levels and for kinds. -/
def passes (level kind : Option String) (event : Event) : Bool :=
  isAskedFor level event.level.name && isAskedFor kind event.kind.name

theorem same_dump (event : Event) : Json.Same event.toJson event.dump :=
  Json.same_sortKeys _

theorem get?_dump (event : Event) (key : String) :
    event.dump.get? key = (event.toFields.lookup key).map Json.sortKeys :=
  Json.lookup_sortKeysFields (by simp [toFields]) key

end Event

namespace Log

open FileTree

/-! ## Names -/

theorem isIdChar_iff {c : Char} :
    isIdChar c = true ↔
      ('A' ≤ c ∧ c ≤ 'Z') ∨ ('a' ≤ c ∧ c ≤ 'z') ∨ ('0' ≤ c ∧ c ≤ '9') ∨ c = '_' ∨ c = '-' := by
  have halphanum : c.isAlphanum =
      (decide (c.val ≥ 'A'.val ∧ c.val ≤ 'Z'.val) || decide (c.val ≥ 'a'.val) &&
        decide (c.val ≤ 'z'.val) || decide (c.val ≥ '0'.val) && decide (c.val ≤ '9'.val)) := rfl
  simp only [isIdChar, halphanum, Bool.or_eq_true, Bool.and_eq_true, decide_eq_true_eq,
    beq_iff_eq, or_assoc]
  rfl

theorem toNat_le_of_isIdChar {c : Char} (h : isIdChar c = true) : c.toNat ≤ 0x7F := by
  rcases isIdChar_iff.mp h with ⟨_, h⟩ | ⟨_, h⟩ | ⟨_, h⟩ | rfl | rfl
  · exact Nat.le_trans h (by decide)
  · exact Nat.le_trans h (by decide)
  · exact Nat.le_trans h (by decide)
  · decide
  · decide

/-- The file of an id has a name as long as 248 characters are left for the id. -/
theorem isTooLong_calcName {id : String} (hid : ∀ c ∈ id.toList, isIdChar c = true) :
    FileTree.isTooLong (id ++ ".ndjson") = decide (248 < id.length) := by
  have hbytes : id.utf8ByteSize = id.length := by
    rw [← Text.Utf8.length_encode, Text.Utf8.length_encode_ascii fun c hc =>
      toNat_le_of_isIdChar (hid c hc), String.length_toList]
  have hsuffix : ".ndjson".utf8ByteSize = 7 := rfl
  rw [FileTree.isTooLong, String.utf8ByteSize_append, hbytes, hsuffix]
  simp only [decide_eq_decide]
  omega

theorem isSafeId_of_isIdChar {id : String} (hne : id ≠ "")
    (hid : ∀ c ∈ id.toList, isIdChar c = true) : isSafeId id = true := by
  have hlast : id.toList.getLast? ≠ some '\n' := by
    intro heq
    have hmem := List.mem_of_getLast? heq
    exact absurd (hid _ hmem) (by decide)
  simp only [isSafeId, if_neg hlast, Bool.and_eq_true, Bool.not_eq_true', List.isEmpty_eq_false_iff]
  refine ⟨?_, List.all_eq_true.mpr hid⟩
  intro hnil
  exact hne (String.toList_inj.mp hnil)

theorem not_isTooLong_of_create {tree opened : FileTree} {folder : Path} {tailBytes : Option Int}
    {limits : Limits} {log : Log}
    (h : Log.create tree folder tailBytes limits = .ok (opened, log)) :
    (calcFolder folder).any isTooLong = false := by
  obtain ⟨-, made, -, hopened⟩ := exists_of_create h
  exact not_isTooLong_of_makeFoldersFrom hopened

theorem not_isTooLong_globalFile {folder : Path} (h : (calcFolder folder).any isTooLong = false) :
    (globalFile folder).any isTooLong = false := by
  rw [calcFolder, List.any_append, Bool.or_eq_false_iff] at h
  rw [globalFile, List.any_append, h.1]
  decide

theorem not_isTooLong_calcFile {folder : Path} {id : String}
    (h : (calcFolder folder).any isTooLong = false) (hid : ∀ c ∈ id.toList, isIdChar c = true)
    (hlength : id.length ≤ 248) : (calcFile folder id).any isTooLong = false := by
  rw [calcFile, List.any_append, h, Bool.false_or, List.any_cons, List.any_nil, Bool.or_false,
    isTooLong_calcName hid, decide_eq_false_iff_not]
  omega

/-! ## Reading a file -/

theorem maxPosition_nonneg : 0 ≤ maxPosition := by
  decide

theorem values_of_length_le {depth : Nat} {tailBytes : Int} {bytes : List UInt8}
    (h : bytes.length ≤ tailBytes) :
    values depth tailBytes bytes = valuesOf depth (lineTexts bytes) := by
  have hposition := maxPosition_nonneg
  rw [values, if_neg (by omega), tail, if_pos h]

/-- A file that can have its name is read from its end, and without the file there is nothing
to read. -/
theorem readFile_of_holds {log : Log} {tree : FileTree} {path : Path} {bytes : List UInt8}
    (h : tree.Holds path bytes) (hname : path.any isTooLong = false) (htail : 0 ≤ log.tailBytes) :
    log.readFile path tree = values log.limits.depth log.tailBytes bytes := by
  have hfind : tree.find path = .ok (tree.node? path) := by
    rw [find, hname]
    rfl
  rw [readFile, hfind]
  rcases h with hfile | ⟨hnone, rfl⟩
  · rw [hfile]
  · rw [hnone, values_of_length_le htail]
    rfl

/-! ## Filters -/

theorem fieldIs_dump {key text : String} {event : Event} {name : String}
    (hname : event.toFields.lookup key = some (.str name)) :
    fieldIs key text event.dump = (name == text) := by
  rw [fieldIs, Event.get?_dump, hname]
  rfl

theorem passes_dump {key : String} {event : Event} {name : String}
    (hname : event.toFields.lookup key = some (.str name)) (filter : Option String) :
    Passes key filter event.dump ↔ Event.isAskedFor filter name = true := by
  have hget : event.dump.get? key = some (.str name) := by
    rw [Event.get?_dump, hname]
    rfl
  unfold Passes wanted Event.isAskedFor
  cases filter with
  | none => simp
  | some text =>
      rw [hget, Option.filter_some]
      dsimp only
      cases text.isEmpty with
      | true => simp
      | false =>
          simp only [Bool.not_false, if_true, Option.mem_some_iff, forall_eq', Option.some.injEq,
            Json.str.injEq, Bool.false_or, beq_iff_eq]
          exact eq_comm

theorem isSelected_dump {level kind : Option String} {event : Event} :
    IsSelected level kind event.dump ↔ event.passes level kind = true := by
  have hlevel : event.toFields.lookup "level" = some (.str event.level.name) := rfl
  have hkind : event.toFields.lookup "event_type" = some (.str event.kind.name) := rfl
  rw [Event.passes, Bool.and_eq_true, ← passes_dump hlevel, ← passes_dump hkind]
  exact ⟨fun h => ⟨h.level, h.kind⟩, fun h => ⟨rfl, h.1, h.2⟩⟩

/-! ## Queries -/

/-- What a query returns if the global file is read as the values of some events. -/
theorem readGlobal_of_readFile {log : Log} {tree : FileTree} {events : List Event}
    (h : log.readFile (globalFile log.folder) tree = .ok (events.map Event.dump))
    (level kind : Option String) {limit : Int} (hlimit : 0 ≤ limit) :
    log.readGlobal level kind limit tree =
      .ok (((events.filter (·.passes level kind)).reverse.take (min limit maxLimit).toNat).map
        Event.dump) := by
  have hobjects : ∀ value ∈ events.map Event.dump, value.isObj = true :=
    List.forall_mem_map.mpr fun _ _ => rfl
  have hselected : (fun value => decide (IsSelected level kind value)) ∘ Event.dump =
      (·.passes level kind) := by
    funext event
    rw [Function.comp, Bool.eq_iff_iff, decide_eq_true_iff, isSelected_dump]
  rw [readGlobal_of_isObj h hobjects hlimit, List.filter_map, hselected, ← List.map_reverse,
    ← List.map_take]

theorem forall₂_same_dump (events : List Event) :
    List.Forall₂ Json.Same (events.map Event.toJson) (events.map Event.dump) := by
  rw [List.forall₂_map_left_iff, List.forall₂_map_right_iff, List.forall₂_same]
  exact fun event _ => event.same_dump

/-- The values of events that were written are read back from their lines. -/
theorem values_of_written {events : List Event} {limits : Limits} {tailBytes : Int}
    (hkeys : ∀ event ∈ events, event.HasUniqueKeys)
    (hwritable : ∀ event ∈ events, event.IsWritable limits)
    (hlength : (events.flatMap lineBytes).length ≤ tailBytes) :
    values limits.depth tailBytes (events.flatMap lineBytes) = .ok (events.map Event.dump) := by
  rw [values_of_length_le hlength, valuesOf_flatMap hkeys hwritable]

/-- The log of an empty folder gives back what was written to it. -/
theorem read_writeEach {tree opened written : FileTree} {folder : Path} {bound : Option Int}
    {limits : Limits} {log : Log} {entries : List (Event × Option String)}
    (hempty : tree.IsEmptyFolder folder)
    (hcreate : Log.create tree folder bound limits = .ok (opened, log))
    (hkeys : ∀ entry ∈ entries, entry.1.HasUniqueKeys)
    (hwrite : log.writeEach entries opened = some written) (tailBytes : Int) :
    ((written.contents (globalFile folder)).length ≤ tailBytes →
      ∀ level kind limit, 0 ≤ limit →
        ∃ values, Log.readGlobal ⟨folder, tailBytes, limits⟩ level kind limit written = .ok values ∧
          List.Forall₂ Json.Same
            ((((entries.map Prod.fst).filter (·.passes level kind)).reverse.take
              (min limit 2000).toNat).map Event.toJson) values) ∧
    ∀ id, id ≠ "" → (∀ c ∈ id.toList, isIdChar c = true) → id.length ≤ 248 →
      (written.contents (calcFile folder id)).length ≤ tailBytes →
        ∃ values, Log.readCalc ⟨folder, tailBytes, limits⟩ id written = .ok values ∧
          List.Forall₂ Json.Same ((ofCalc id entries).map Event.toJson) values := by
  obtain ⟨rfl, hrecords, hwritable⟩ := records_of_writeEach hempty hcreate hwrite
  have hnames := not_isTooLong_of_create hcreate
  constructor
  · intro hlength level kind limit hlimit
    have hglobal := hrecords.holdsGlobal
    rw [hglobal.contents_eq] at hlength
    refine ⟨_, readGlobal_of_readFile ?_ level kind hlimit, forall₂_same_dump _⟩
    rw [readFile_of_holds hglobal (not_isTooLong_globalFile hnames) (by dsimp only; omega)]
    apply values_of_written _ _ hlength
    · exact List.forall_mem_map.mpr hkeys
    · exact List.forall_mem_map.mpr hwritable
  · intro id hne hid hidLength hlength
    have hsafe := isSafeId_of_isIdChar hne hid
    have hcalc := hrecords.holdsCalc id hsafe
    rw [hcalc.contents_eq] at hlength
    refine ⟨_, ?_, forall₂_same_dump _⟩
    rw [readCalc, if_pos hsafe, readFile_of_holds hcalc
      (not_isTooLong_calcFile hnames hid hidLength) (by dsimp only; omega)]
    apply values_of_written _ _ hlength
    · exact List.forall_mem_map.mpr fun entry hentry => hkeys entry (List.mem_of_mem_filter hentry)
    · exact List.forall_mem_map.mpr fun entry hentry =>
        hwritable entry (List.mem_of_mem_filter hentry)

theorem isEmptyFolder_empty (folder : Path) : FileTree.empty.IsEmptyFolder folder := by
  intro name names hancestor
  rw [node?, hancestor]
  rfl

theorem create_empty : Log.create .empty [] none =
    .ok (⟨[(["logs"], .folder), (["logs", "calcs"], .folder)]⟩, ⟨[], defaultTailBytes, .own⟩) :=
  rfl

/-- Two events, of which one is full of line breaks and belongs to a calculation, are read back
from the log and from the file of the calculation. -/
theorem read_writeEach_lineBreaks :
    let entries : List (Event × Option String) :=
      [(⟨1, "t", .error, .formulaFailed,
          [("b", .arr [.int (-7), .null]), ("a", .obj [("k", .str "\u2028")])], "a\nb 😀", some "\r"⟩,
        some "c-1"),
        (⟨1, "", .info, .formulaSet, [], "", none⟩, none)]
    ∃ opened log written,
      (FileTree.empty.IsEmptyFolder [] ∧ Log.create .empty [] none = .ok (opened, log) ∧
        (∀ entry ∈ entries, entry.1.HasUniqueKeys) ∧
        log.writeEach entries opened = some written) ∧
      (∃ values,
        Log.readGlobal ⟨[], (written.contents (globalFile [])).length, .own⟩ (some "error") (some "") 5
          written = .ok values ∧
        List.Forall₂ Json.Same
          ((((entries.map Prod.fst).filter (·.passes (some "error") (some ""))).reverse.take
            (min 5 2000 : Int).toNat).map Event.toJson) values) ∧
      ∃ values,
        Log.readCalc ⟨[], (written.contents (calcFile [] "c-1")).length, .own⟩ "c-1" written =
          .ok values ∧
        List.Forall₂ Json.Same ((ofCalc "c-1" entries).map Event.toJson) values := by
  intro entries
  have hkeys : ∀ entry ∈ entries, entry.1.HasUniqueKeys := by
    simp [entries, Event.HasUniqueKeys, Json.HasUniqueKeys, Json.ItemsHaveUniqueKeys,
      Json.FieldsHaveUniqueKeys]
  have hsome : (Log.writeEach ⟨[], defaultTailBytes, .own⟩ entries
      ⟨[(["logs"], .folder), (["logs", "calcs"], .folder)]⟩).isSome = true := by
    decide +kernel
  obtain ⟨written, hwrite⟩ := Option.isSome_iff_exists.mp hsome
  have hid : ("c-1".toList.all isIdChar) = true := rfl
  refine ⟨_, _, written, ⟨isEmptyFolder_empty [], create_empty, hkeys, hwrite⟩, ?_, ?_⟩
  · exact (read_writeEach (isEmptyFolder_empty []) create_empty hkeys hwrite _).1 (Int.le_refl _)
      _ _ 5 (by decide)
  · exact (read_writeEach (isEmptyFolder_empty []) create_empty hkeys hwrite _).2 "c-1"
      (by decide) (List.all_eq_true.mp hid) (by decide) (Int.le_refl _)

/-- An id of more than 248 characters cannot be asked for, even if nothing was written with it. -/
theorem readCalc_of_length {log : Log} {tree : FileTree} {id : String} (hne : id ≠ "")
    (hid : ∀ c ∈ id.toList, isIdChar c = true) (hlength : 248 < id.length) :
    log.readCalc id tree = .error (.file .nameTooLong) := by
  have hname : (calcFile log.folder id).any isTooLong = true := by
    rw [calcFile, List.any_append, List.any_cons, isTooLong_calcName hid, decide_eq_true hlength]
    simp
  rw [readCalc, if_pos (isSafeId_of_isIdChar hne hid), readFile, find, if_pos hname]

theorem readCalc_overlong_id :
    let id := String.ofList (List.replicate 249 'a')
    ∃ opened log, Log.create .empty [] none = .ok (opened, log) ∧
      (id ≠ "" ∧ (∀ c ∈ id.toList, isIdChar c = true) ∧ log.writeEach [] opened = some opened ∧
        (opened.contents (calcFile [] id)).length ≤ log.tailBytes) ∧
      ¬ ∃ values, log.readCalc id opened = .ok values ∧
        List.Forall₂ Json.Same ((ofCalc id []).map Event.toJson) values := by
  intro id
  have hid : ∀ c ∈ id.toList, isIdChar c = true := by
    intro c hc
    rw [String.toList_ofList] at hc
    rw [List.eq_of_mem_replicate hc]
    decide
  have hlength : id.length = 249 := by
    rw [← String.length_toList, String.toList_ofList, List.length_replicate]
  have hne : id ≠ "" := by
    intro heq
    rw [heq] at hlength
    cases hlength
  have hholds := (records_of_create (isEmptyFolder_empty []) create_empty).holdsCalc id
    (isSafeId_of_isIdChar hne hid)
  refine ⟨_, _, create_empty, ⟨hne, hid, rfl, ?_⟩, ?_⟩
  · rw [hholds.contents_eq]
    decide
  · rintro ⟨values, hread, -⟩
    rw [readCalc_of_length hne hid (by omega)] at hread
    cases hread

end Log

end ColumnFormula
