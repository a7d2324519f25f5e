import ColumnFormula.Proofs.Log.RoundTrip

/-!
# The end of a log that is read

When a file is longer than the part of it that is read, everything up to the first line feed
of that part is dropped. This drops the rest of a line that is cut by the bound, but also a
whole line if the part begins with one. So the events that are read are those whose lines and
the line feeds in front of them lie in the part, which are all whose lines lie in it unless it
begins exactly where a line does; then the oldest of them is lost.
-/

namespace ColumnFormula.Log

/-- How many bytes the lines of some events take. -/
def size (events : List Event) : Nat :=
  (events.flatMap lineBytes).length

/-- The events whose whole lines lie within the last `bytes` bytes of a file. -/
def complete (bytes : Nat) : List Event → List Event
  | [] => []
  | event :: events =>
    if size (event :: events) ≤ bytes then event :: events else complete bytes events

/-- The events that are read from the last `bytes` bytes of a file. -/
def seen (bytes : Nat) (events : List Event) : List Event :=
  if size events ≤ bytes then events else complete (bytes - 1) events

/-- Whether the last `bytes` bytes of a file begin where a line does, behind some other line. -/
def BeginsLine (bytes : Nat) (events : List Event) : Prop :=
  ∃ older newer, older ≠ [] ∧ newer ≠ [] ∧ events = older ++ newer ∧ size newer = bytes

/-! ## Sizes -/

@[simp] theorem size_nil : size [] = 0 := rfl

theorem size_cons (event : Event) (events : List Event) :
    size (event :: events) = (lineBytes event).length + size events := by
  rw [size, List.flatMap_cons, List.length_append, size]

/-- A line is its text, which holds no line feed, and a line feed. -/
theorem lineBytes_eq (event : Event) :
    lineBytes event = Text.Utf8.encode event.dump.write ++ [10] := by
  rw [lineBytes, line, Text.Utf8.encode_append]
  rfl

theorem ten_not_mem_text (event : Event) :
    (10 : UInt8) ∉ Text.Utf8.encode event.dump.write :=
  Text.Utf8.ten_not_mem_encode fun hmem => (Json.isPlain_write _ _ hmem).ne_newline rfl

theorem length_lineBytes_pos (event : Event) : 0 < (lineBytes event).length := by
  simp [lineBytes_eq]

/-! ## Complete events -/

theorem complete_of_size_le {bytes : Nat} {events : List Event} (h : size events ≤ bytes) :
    complete bytes events = events := by
  cases events with
  | nil => rfl
  | cons event events => rw [complete, if_pos h]

theorem complete_cons_of_lt {bytes : Nat} {event : Event} {events : List Event}
    (h : bytes < size (event :: events)) :
    complete bytes (event :: events) = complete bytes events := by
  rw [complete, if_neg (by omega)]

/-- A byte less than all lines take leaves out the first of them. -/
theorem complete_size_sub_one (events : List Event) :
    complete (size events - 1) events = events.tail := by
  cases events with
  | nil => rfl
  | cons event events =>
      have hpos := length_lineBytes_pos event
      rw [size_cons, complete_cons_of_lt (by rw [size_cons]; omega)]
      exact complete_of_size_le (by omega)

/-! ## What is dropped -/

theorem afterFirstLine_append {text rest : List UInt8} (h : (10 : UInt8) ∉ text) :
    afterFirstLine (text ++ 10 :: rest) = rest := by
  have hdrop : (text ++ 10 :: rest).dropWhile (· != 10) = 10 :: rest := by
    rw [List.dropWhile_append_of_pos]
    · rfl
    · intro b hb
      rw [bne_iff_ne]
      rintro rfl
      exact h hb
  rw [afterFirstLine, hdrop]

/-- A part that begins with a line loses it. -/
theorem afterFirstLine_flatMap_tail (events : List Event) :
    afterFirstLine (events.flatMap lineBytes) = events.tail.flatMap lineBytes := by
  cases events with
  | nil => rfl
  | cons event events =>
      rw [List.flatMap_cons, lineBytes_eq, List.append_assoc, List.singleton_append,
        afterFirstLine_append (ten_not_mem_text event)]
      rfl

/-- A part that begins within a line loses the rest of this line. -/
theorem afterFirstLine_drop_line {count : Nat} {event : Event} (events : List Event)
    (h : count < (lineBytes event).length) :
    afterFirstLine ((lineBytes event ++ events.flatMap lineBytes).drop count) =
      events.flatMap lineBytes := by
  rw [lineBytes_eq, List.length_append, List.length_singleton] at h
  rw [lineBytes_eq, List.append_assoc, List.singleton_append,
    List.drop_append_of_le_length (by omega), afterFirstLine_append]
  exact fun hmem => ten_not_mem_text event (List.mem_of_mem_drop hmem)

/-- What is left of the last part of a file that is longer than the part. -/
theorem afterFirstLine_drop {bytes : Nat} {events : List Event} (h : bytes < size events) :
    afterFirstLine ((events.flatMap lineBytes).drop (size events - bytes)) =
      (complete (bytes - 1) events).flatMap lineBytes := by
  induction events with
  | nil => simp at h
  | cons event events ih =>
      rw [complete_cons_of_lt (by omega)]
      rw [size_cons] at h ⊢
      rw [List.flatMap_cons]
      rcases Nat.lt_or_ge (size events) bytes with hwithin | hlater
      · -- The part begins within the first line, which is dropped.
        rw [complete_of_size_le (by omega)]
        exact afterFirstLine_drop_line events (by omega)
      · -- All of the first line lies in front of the part.
        have hcount : (lineBytes event).length + size events - bytes =
            (lineBytes event).length + (size events - bytes) := by omega
        rw [hcount, List.drop_append, List.drop_eq_nil_of_le (by omega), List.nil_append,
          Nat.add_sub_cancel_left]
        rcases Nat.eq_or_lt_of_le hlater with rfl | hlt
        · rw [Nat.sub_self, List.drop_zero, complete_size_sub_one]
          exact afterFirstLine_flatMap_tail events
        · exact ih hlt

/-- The end of a file that is read holds the lines of the events that are seen. -/
theorem tail_flatMap (bytes : Nat) (events : List Event) :
    tail bytes (events.flatMap lineBytes) = (seen bytes events).flatMap lineBytes := by
  unfold tail seen
  by_cases h : size events ≤ bytes
  · rw [if_pos h, if_pos (by exact_mod_cast h)]
  · have hlength : ¬ ((events.flatMap lineBytes).length : Int) ≤ bytes := by
      change ¬ (size events : Int) ≤ bytes
      omega
    rw [if_neg h, if_neg hlength]
    exact afterFirstLine_drop (by omega)

/-! ## What is lost -/

theorem beginsLine_cons_iff {bytes : Nat} {event : Event} {events : List Event} :
    BeginsLine bytes (event :: events) ↔
      (events ≠ [] ∧ size events = bytes) ∨ BeginsLine bytes events := by
  constructor
  · rintro ⟨older, newer, holder, hnewer, heq, hsize⟩
    cases older with
    | nil => exact absurd rfl holder
    | cons first older =>
        obtain ⟨-, rfl⟩ := List.cons.inj heq
        by_cases hnil : older = []
        · subst hnil
          exact .inl ⟨hnewer, hsize⟩
        · exact .inr ⟨older, newer, hnil, hnewer, rfl, hsize⟩
  · rintro (⟨hevents, hsize⟩ | ⟨older, newer, -, hnewer, rfl, hsize⟩)
    · exact ⟨[event], events, by simp, hevents, rfl, hsize⟩
    · exact ⟨event :: older, newer, by simp, hnewer, rfl, hsize⟩

theorem not_beginsLine_of_size_le {bytes : Nat} {events : List Event} (h : size events ≤ bytes) :
    ¬ BeginsLine bytes events := by
  induction events with
  | nil =>
      rintro ⟨older, newer, holder, -, heq, -⟩
      exact holder (List.append_eq_nil_iff.mp heq.symm).1
  | cons event events ih =>
      have hpos := length_lineBytes_pos event
      rw [size_cons] at h
      rw [beginsLine_cons_iff]
      rintro (⟨-, hsize⟩ | hbegins)
      · omega
      · exact ih (by omega) hbegins

/-- A byte less changes what is complete only where a line begins, and then by its event. -/
theorem complete_sub_one {bytes : Nat} {events : List Event} (h : bytes < size events) :
    (BeginsLine bytes events → complete (bytes - 1) events = (complete bytes events).tail) ∧
      (¬ BeginsLine bytes events → complete (bytes - 1) events = complete bytes events) := by
  induction events with
  | nil => simp at h
  | cons event events ih =>
      rw [complete_cons_of_lt h, complete_cons_of_lt (by omega), beginsLine_cons_iff]
      -- The part begins within the first line, right behind it, or in a later line.
      rcases Nat.lt_trichotomy (size events) bytes with hwithin | rfl | hlater
      · have hnot := not_beginsLine_of_size_le (Nat.le_of_lt hwithin)
        rw [complete_of_size_le (Nat.le_of_lt hwithin), complete_of_size_le (by omega)]
        refine ⟨?_, fun _ => rfl⟩
        rintro (⟨-, hsize⟩ | hbegins)
        · omega
        · exact absurd hbegins hnot
      · rw [complete_of_size_le (Nat.le_refl _), complete_size_sub_one]
        refine ⟨fun _ => rfl, ?_⟩
        intro hnot
        have hnil : events = [] := by
          by_contra hne
          exact hnot (.inl ⟨hne, rfl⟩)
        rw [hnil, List.tail_nil]
      · obtain ⟨hbegins, hnot⟩ := ih hlater
        have hsize : ¬ (events ≠ [] ∧ size events = bytes) := fun hboth => by omega
        exact ⟨fun h' => hbegins (h'.resolve_left hsize), fun h' => hnot fun h'' => h' (.inr h'')⟩

/-- The oldest of the complete events is lost if the part begins with its line. -/
theorem seen_of_beginsLine {bytes : Nat} {events : List Event} (h : BeginsLine bytes events) :
    seen bytes events = (complete bytes events).tail := by
  have hsize : ¬ size events ≤ bytes := fun hle => not_beginsLine_of_size_le hle h
  rw [seen, if_neg hsize]
  exact (complete_sub_one (by omega)).1 h

/-- All complete events are seen otherwise. -/
theorem seen_of_not_beginsLine {bytes : Nat} {events : List Event}
    (h : ¬ BeginsLine bytes events) : seen bytes events = complete bytes events := by
  unfold seen
  split
  next hsize => rw [complete_of_size_le hsize]
  next hsize => exact (complete_sub_one (by omega)).2 h

theorem complete_ne_nil_of_beginsLine {bytes : Nat} {events : List Event}
    (h : BeginsLine bytes events) : complete bytes events ≠ [] := by
  induction events with
  | nil => exact absurd h (not_beginsLine_of_size_le (Nat.zero_le _))
  | cons event events ih =>
      have hsize : ¬ size (event :: events) ≤ bytes := fun hle => not_beginsLine_of_size_le hle h
      rw [complete_cons_of_lt (by omega)]
      rcases beginsLine_cons_iff.mp h with ⟨hne, hall⟩ | hlater
      · rw [complete_of_size_le (Nat.le_of_eq hall)]
        exact hne
      · exact ih hlater

/-- All complete events are seen if and only if the part does not begin with the line of one. -/
theorem seen_eq_complete_iff {bytes : Nat} {events : List Event} :
    seen bytes events = complete bytes events ↔ ¬ BeginsLine bytes events := by
  refine ⟨?_, seen_of_not_beginsLine⟩
  intro heq hbegins
  rw [seen_of_beginsLine hbegins] at heq
  have hlength := congrArg List.length heq
  have hpos := List.length_pos_iff.mpr (complete_ne_nil_of_beginsLine hbegins)
  rw [List.length_tail] at hlength
  omega

/-! ## Reading the end of a log -/

theorem complete_suffix (bytes : Nat) (events : List Event) : complete bytes events <:+ events := by
  induction events with
  | nil => exact List.suffix_refl _
  | cons event events ih =>
      rw [complete]
      split
      next => exact List.suffix_refl _
      next => exact ih.trans (List.suffix_cons _ _)

theorem seen_suffix (bytes : Nat) (events : List Event) : seen bytes events <:+ events := by
  unfold seen
  split
  next => exact List.suffix_refl _
  next => exact complete_suffix _ _

/-- The last part of a file is read as the values of the events that are seen, if a file can
have a position where it begins. -/
theorem values_flatMap {events : List Event} {limits : Limits} (bytes : Nat)
    (hkeys : ∀ event ∈ events, event.HasUniqueKeys)
    (hwritable : ∀ event ∈ events, event.IsWritable limits) :
    values limits.depth bytes (events.flatMap lineBytes) =
      if maxPosition < size events - bytes then .error .noPosition
      else .ok ((seen bytes events).map Event.dump) := by
  have hmem : ∀ event ∈ seen bytes events, event ∈ events := fun _ hevent =>
    (seen_suffix bytes events).subset hevent
  rw [values, tail_flatMap, valuesOf_flatMap (fun event hevent => hkeys event (hmem event hevent))
    (fun event hevent => hwritable event (hmem event hevent))]
  rfl

theorem filter_passes_none (events : List Event) :
    events.filter (·.passes none none) = events :=
  List.filter_eq_self.mpr fun _ _ => rfl

section Reading

variable {tree opened written : FileTree} {folder : Path} {bound : Option Int}
  {limits : Limits} {log : Log} {entries : List (Event × Option String)} {limit : Int}

/-- What a query for all events returns. -/
theorem readGlobal_writeEach (hempty : tree.IsEmptyFolder folder)
    (hcreate : Log.create tree folder bound limits = .ok (opened, log))
    (hkeys : ∀ entry ∈ entries, entry.1.HasUniqueKeys)
    (hwrite : log.writeEach entries opened = some written)
    (hlimit : entries.length ≤ limit) (hcount : entries.length ≤ 2000) (bytes : Nat) :
    Log.readGlobal ⟨folder, bytes, limits⟩ none none limit written =
      if maxPosition < size (entries.map Prod.fst) - bytes then .error .noPosition
      else .ok ((seen bytes (entries.map Prod.fst)).reverse.map Event.dump) := by
  obtain ⟨rfl, hrecords, hwritable⟩ := records_of_writeEach hempty hcreate hwrite
  have hnames := not_isTooLong_of_create hcreate
  have hread : Log.readFile ⟨log.folder, bytes, limits⟩ (globalFile log.folder) written =
      values limits.depth bytes ((entries.map Prod.fst).flatMap lineBytes) :=
    readFile_of_holds hrecords.holdsGlobal (not_isTooLong_globalFile hnames)
      (Int.natCast_nonneg bytes)
  rw [values_flatMap bytes (List.forall_mem_map.mpr hkeys) (List.forall_mem_map.mpr hwritable)]
    at hread
  split
  next hposition =>
    rw [if_pos hposition] at hread
    rw [readGlobal, hread]
    rfl
  next hposition =>
    rw [if_neg hposition] at hread
    have hlength := (seen_suffix bytes (entries.map Prod.fst)).length_le
    have hmax : maxLimit = 2000 := rfl
    rw [List.length_map] at hlength
    rw [readGlobal_of_readFile hread none none (by omega), filter_passes_none,
      List.take_of_length_le]
    rw [List.length_reverse]
    omega

/-- What is read of the last `bytes` bytes of the log of an empty folder: the events of all whole
lines there, but for the first of these lines if the part begins with it. -/
theorem readGlobal_tail (hempty : tree.IsEmptyFolder folder)
    (hcreate : Log.create tree folder bound limits = .ok (opened, log))
    (hkeys : ∀ entry ∈ entries, entry.1.HasUniqueKeys)
    (hwrite : log.writeEach entries opened = some written)
    (hlimit : entries.length ≤ limit) (hcount : entries.length ≤ 2000) (bytes : Nat) :
    let events := entries.map Prod.fst
    (∃ values, Log.readGlobal ⟨folder, bytes, limits⟩ none none limit written =
        (if maxPosition < size events - bytes then .error .noPosition else .ok values) ∧
      List.Forall₂ Json.Same ((seen bytes events).reverse.map Event.toJson) values) ∧
    (seen bytes events = complete bytes events ↔ ¬ BeginsLine bytes events) ∧
    (BeginsLine bytes events → seen bytes events = (complete bytes events).tail) := by
  intro events
  exact ⟨⟨_, readGlobal_writeEach hempty hcreate hkeys hwrite hlimit hcount bytes,
    forall₂_same_dump _⟩, seen_eq_complete_iff, seen_of_beginsLine⟩

theorem readGlobal_tail_twoEvents :
    let event : Event := ⟨1, "t", .info, .formulaSet, [], "m", none⟩
    let entries : List (Event × Option String) := [(event, none), (event, some "c")]
    ∃ opened log written,
      (FileTree.empty.IsEmptyFolder [] ∧ Log.create .empty [] none = .ok (opened, log) ∧
        (∀ entry ∈ entries, entry.1.HasUniqueKeys) ∧
        log.writeEach entries opened = some written ∧ entries.length ≤ (2 : Int) ∧
        entries.length ≤ 2000) ∧
      (∃ values, Log.readGlobal ⟨[], 150, .own⟩ none none 2 written =
          (if maxPosition < size [event, event] - (150 : Nat) then .error .noPosition
            else .ok values) ∧
        List.Forall₂ Json.Same ((seen 150 [event, event]).reverse.map Event.toJson) values) ∧
      (seen 150 [event, event] = complete 150 [event, event] ↔
        ¬ BeginsLine 150 [event, event]) ∧
      (BeginsLine 150 [event, event] →
        seen 150 [event, event] = (complete 150 [event, event]).tail) := by
  intro event entries
  have hkeys : ∀ entry ∈ entries, entry.1.HasUniqueKeys := by
    simp [entries, event, Event.HasUniqueKeys, Json.HasUniqueKeys, Json.FieldsHaveUniqueKeys]
  have hsome : (Log.writeEach ⟨[], defaultTailBytes, .own⟩ entries
      ⟨[(["logs"], .folder), (["logs", "calcs"], .folder)]⟩).isSome = true := by
    decide +kernel
  obtain ⟨written, hwrite⟩ := Option.isSome_iff_exists.mp hsome
  exact ⟨_, _, written, ⟨isEmptyFolder_empty [], create_empty, hkeys, hwrite, by decide, by decide⟩,
    readGlobal_tail (isEmptyFolder_empty []) create_empty hkeys hwrite (by decide) (by decide) 150⟩

/-- Where a line begins, other values than those of the complete events are read. -/
theorem not_same_of_beginsLine {bytes : Nat} {events : List Event} {values : List Json}
    (h : BeginsLine bytes events)
    (hread : (if maxPosition < size events - bytes then Except.error LogError.noPosition
      else .ok ((seen bytes events).reverse.map Event.dump)) = .ok values) :
    ¬ List.Forall₂ Json.Same ((complete bytes events).reverse.map Event.toJson) values := by
  intro hsame
  split at hread
  next => cases hread
  next =>
    obtain rfl := Except.ok.inj hread
    have hlength := hsame.length_eq
    have hpos := List.length_pos_iff.mpr (complete_ne_nil_of_beginsLine h)
    rw [seen_of_beginsLine h] at hlength
    simp only [List.length_map, List.length_reverse, List.length_tail] at hlength
    omega

/-- A line that the part begins with is whole, and yet its event is not read. -/
theorem readGlobal_lineStart :
    let event : Event := ⟨1, "t", .info, .formulaSet, [], "m", none⟩
    let entries : List (Event × Option String) := [(event, none), (event, none)]
    ∃ opened log written, Log.create .empty [] none = .ok (opened, log) ∧
      log.writeEach entries opened = some written ∧
      ¬ ∃ values, Log.readGlobal ⟨[], size [event], .own⟩ none none 2 written = .ok values ∧
        List.Forall₂ Json.Same
          ((complete (size [event]) [event, event]).reverse.map Event.toJson) values := by
  intro event entries
  have hkeys : ∀ entry ∈ entries, entry.1.HasUniqueKeys := by
    simp [entries, event, Event.HasUniqueKeys, Json.HasUniqueKeys, Json.FieldsHaveUniqueKeys]
  have hsome : (Log.writeEach ⟨[], defaultTailBytes, .own⟩ entries
      ⟨[(["logs"], .folder), (["logs", "calcs"], .folder)]⟩).isSome = true := by
    decide +kernel
  obtain ⟨written, hwrite⟩ := Option.isSome_iff_exists.mp hsome
  refine ⟨_, _, written, create_empty, hwrite, ?_⟩
  rintro ⟨values, hread, hsame⟩
  have hbegins : BeginsLine (size [event]) [event, event] :=
    ⟨[event], [event], by simp, by simp, rfl, rfl⟩
  have hseen : Log.readGlobal ⟨[], size [event], .own⟩ none none 2 written =
      if maxPosition < size [event, event] - size [event] then .error .noPosition
      else .ok ((seen (size [event]) [event, event]).reverse.map Event.dump) :=
    readGlobal_writeEach (isEmptyFolder_empty []) create_empty hkeys hwrite (by decide) (by decide) _
  exact not_same_of_beginsLine hbegins (hseen.symm.trans hread) hsame

end Reading

end ColumnFormula.Log
