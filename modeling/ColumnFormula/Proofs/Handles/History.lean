import Mathlib.Logic.Function.Basic
import Mathlib.Order.Interval.Finset.Nat
import ColumnFormula.Proofs.Handles.Reachable
import ColumnFormula.Proofs.Lookup

/-!
# Handles through a history

What a table answers is told by what was done with it before: the next handle is one more than
the number of texts so far, and a text stands behind its handle from the step that gives the
handle out to the first step that releases it. A release that comes too early or too late changes
nothing. Several tables do not touch one another, whoever uses them and in whatever order.
-/

namespace ColumnFormula.HandleTable

/-- What a client does with a table. -/
inductive Step where
  | alloc (text : String)
  | read (handle : Option Int)
  | release (handle : Option Int)
  deriving DecidableEq, Repr

/-- What a client is answered. -/
inductive Answer where
  | issued (handle : Nat)
  | text (text : String)
  /-- No text stands behind the number. -/
  | unknown (message : String)
  | released
  deriving DecidableEq, Repr

def perform (table : HandleTable) : Step → HandleTable × Answer
  | .alloc text => ((table.alloc text).1, .issued (table.alloc text).2)
  | .read handle =>
    (table,
      match table.read? handle with
      | some text => .text text
      | none => .unknown (unknownMessage handle))
  | .release handle => (table.release handle, .released)

/-- A new table after some steps. -/
def after (steps : List Step) : HandleTable :=
  steps.foldl (fun table step => (table.perform step).1) .empty

/-! ## What a history tells -/

/-- The text that a step gives a handle to. -/
def Step.text? : Step → Option String
  | .alloc text => some text
  | _ => none

/-- The texts that some steps give handles to, in order. -/
def allocated (steps : List Step) : List String :=
  steps.filterMap Step.text?

/-- Whether some steps give out a handle for a text and go on with some later steps. -/
def Issues (steps : List Step) (handle : Nat) (text : String) (later : List Step) : Prop :=
  ∃ before, steps = before ++ .alloc text :: later ∧ handle = (allocated before).length + 1

/-- Whether a handle was given out for a text and was not released since. -/
def IsLive (steps : List Step) (handle : Nat) (text : String) : Prop :=
  ∃ later, Issues steps handle text later ∧ .release (some handle) ∉ later

/-- Whether a handle was given out and released since, once or more often. -/
def WasReleased (steps : List Step) (handle : Nat) : Prop :=
  ∃ text later, Issues steps handle text later ∧ .release (some handle) ∈ later

theorem allocated_append (first second : List Step) :
    allocated (first ++ second) = allocated first ++ allocated second :=
  List.filterMap_append

variable {steps later : List Step} {handle : Nat} {text : String}

theorem Issues.bounds (h : Issues steps handle text later) :
    1 ≤ handle ∧ handle ≤ (allocated steps).length := by
  obtain ⟨before, rfl, rfl⟩ := h
  rw [allocated_append, List.length_append]
  change 1 ≤ _ ∧ _ ≤ _ + (text :: allocated later).length
  rw [List.length_cons]
  omega

/-- A handle is given out once. -/
theorem Issues.unique {other : String} {rest : List Step} (h : Issues steps handle text later)
    (hother : Issues steps handle other rest) : later = rest := by
  obtain ⟨before, rfl, rfl⟩ := h
  obtain ⟨before', heq, hcount⟩ := hother
  rw [Nat.add_right_cancel_iff] at hcount
  -- One of the two fronts goes on with the other, and then with the step that gives the handle.
  rcases List.append_eq_append_iff.mp heq with ⟨more, rfl, hmore⟩ | ⟨more, rfl, hmore⟩
  · cases more with
    | nil => exact (List.cons.inj hmore).2
    | cons step more =>
        obtain rfl := (List.cons.inj hmore).1
        rw [allocated_append, List.length_append] at hcount
        change _ = _ + (text :: allocated more).length at hcount
        rw [List.length_cons] at hcount
        omega
  · cases more with
    | nil => exact (List.cons.inj hmore).2.symm
    | cons step more =>
        obtain rfl := (List.cons.inj hmore).1
        rw [allocated_append, List.length_append] at hcount
        change _ + (other :: allocated more).length = _ at hcount
        rw [List.length_cons] at hcount
        omega

theorem issues_concat_iff {step : Step} : Issues (steps ++ [step]) handle text later ↔
    (later = [] ∧ step = .alloc text ∧ handle = (allocated steps).length + 1) ∨
      ∃ rest, later = rest ++ [step] ∧ Issues steps handle text rest := by
  constructor
  · rintro ⟨before, heq, rfl⟩
    rcases List.eq_nil_or_concat later with rfl | ⟨rest, last, rfl⟩
    · obtain ⟨rfl, hstep⟩ := List.append_inj' heq rfl
      exact .inl ⟨rfl, List.head_eq_of_cons_eq hstep, rfl⟩
    · rw [List.concat_eq_append, ← List.cons_append, ← List.append_assoc] at heq
      obtain ⟨rfl, hstep⟩ := List.append_inj' heq rfl
      obtain rfl := List.head_eq_of_cons_eq hstep
      exact .inr ⟨rest, List.concat_eq_append, before, rfl, rfl⟩
  · rintro (⟨rfl, rfl, rfl⟩ | ⟨rest, rfl, before, rfl, rfl⟩)
    · exact ⟨steps, rfl, rfl⟩
    · exact ⟨before, by simp, rfl⟩

/-- Every number up to that of the texts is a handle that was given out. -/
theorem exists_issues (hpos : 1 ≤ handle) (hle : handle ≤ (allocated steps).length) :
    ∃ text later, Issues steps handle text later := by
  induction steps using List.reverseRecOn with
  | nil => exact absurd (Nat.le_trans hpos hle) (by decide)
  | append_singleton steps step ih =>
      rcases Nat.lt_or_ge (allocated steps).length handle with hnew | hold
      · rw [allocated_append, List.length_append] at hle
        cases step with
        | alloc text =>
            have hlast : handle = (allocated steps).length + 1 :=
              Nat.le_antisymm hle hnew
            exact ⟨text, [], issues_concat_iff.mpr (.inl ⟨rfl, rfl, hlast⟩)⟩
        | read handle => exact absurd hle (Nat.not_le.mpr hnew)
        | release handle => exact absurd hle (Nat.not_le.mpr hnew)
      · obtain ⟨text, later, h⟩ := ih hold
        exact ⟨text, later ++ [step], issues_concat_iff.mpr (.inr ⟨later, rfl, h⟩)⟩

theorem isLive_concat_iff {step : Step} : IsLive (steps ++ [step]) handle text ↔
    (step = .alloc text ∧ handle = (allocated steps).length + 1) ∨
      (IsLive steps handle text ∧ step ≠ .release (some handle)) := by
  constructor
  · rintro ⟨later, hissues, hkept⟩
    rcases issues_concat_iff.mp hissues with ⟨-, hstep, hhandle⟩ | ⟨rest, rfl, hrest⟩
    · exact .inl ⟨hstep, hhandle⟩
    · rw [List.mem_append, not_or, List.mem_singleton] at hkept
      exact .inr ⟨⟨rest, hrest, hkept.1⟩, Ne.symm hkept.2⟩
  · rintro (⟨hstep, hhandle⟩ | ⟨⟨rest, hrest, hkept⟩, hstep⟩)
    · exact ⟨[], issues_concat_iff.mpr (.inl ⟨rfl, hstep, hhandle⟩), List.not_mem_nil⟩
    · refine ⟨rest ++ [step], issues_concat_iff.mpr (.inr ⟨rest, rfl, hrest⟩), ?_⟩
      rw [List.mem_append, not_or, List.mem_singleton]
      exact ⟨hkept, Ne.symm hstep⟩

theorem IsLive.bounds (h : IsLive steps handle text) :
    1 ≤ handle ∧ handle ≤ (allocated steps).length := by
  obtain ⟨later, hissues, -⟩ := h
  exact hissues.bounds

/-! ## One table -/

theorem after_concat (steps : List Step) (step : Step) :
    after (steps ++ [step]) = ((after steps).perform step).1 := by
  rw [after, List.foldl_append]
  rfl

theorem Reachable.perform {table : HandleTable} (h : table.Reachable) (step : Step) :
    (table.perform step).1.Reachable := by
  cases step with
  | alloc text => exact .alloc text h
  | read handle => exact h
  | release handle => exact .release handle h

theorem reachable_after (steps : List Step) : (after steps).Reachable := by
  induction steps using List.reverseRecOn with
  | nil => exact .empty
  | append_singleton steps step ih =>
      rw [after_concat]
      exact ih.perform step

theorem issued_after (steps : List Step) : (after steps).issued = (allocated steps).length := by
  induction steps using List.reverseRecOn with
  | nil => rfl
  | append_singleton steps step ih =>
      rw [after_concat, allocated_append, List.length_append, ← ih]
      cases step with
      | alloc text => rfl
      | read handle => rfl
      | release handle =>
          change ((after steps).release handle).issued = _
          unfold release
          split <;> rfl

theorem read?_release (table : HandleTable) (released : Option Int) (handle : Nat) :
    (table.release released).read? (some handle) =
      if released = some (handle : Int) then none else table.read? (some handle) := by
  rw [read?_natCast, live_release]
  refine (lookup_filter table.live (fun n => some (n : Int) ≠ released) handle).trans ?_
  by_cases heq : released = some (handle : Int)
  · simp [heq]
  · simp [heq, Ne.symm heq]

theorem read?_alloc (table : HandleTable) (text : String) (handle : Nat) :
    (table.alloc text).1.read? (some handle) =
      if handle = table.issued + 1 then some text else table.read? (some handle) := by
  rw [read?_natCast, read?_natCast]
  exact lookup_cons_eq_ite handle (table.issued + 1, text) table.live

/-- A text is read by its handle from the step that gives it out to the first that releases it. -/
theorem read?_after (steps : List Step) (handle : Nat) (text : String) :
    (after steps).read? (some handle) = some text ↔ IsLive steps handle text := by
  induction steps using List.reverseRecOn with
  | nil =>
      refine iff_of_false nofun fun hlive => ?_
      exact absurd (Nat.le_trans hlive.bounds.1 hlive.bounds.2) (by decide)
  | append_singleton steps step ih =>
      rw [after_concat, isLive_concat_iff, ← ih]
      cases step with
      | alloc new =>
          change ((after steps).alloc new).1.read? (some handle) = some text ↔ _
          rw [read?_alloc, issued_after]
          split
          next hnew =>
            -- The new handle was not live before.
            have hfresh : (after steps).read? (some handle) ≠ some text := by
              intro hread
              have hbounds := (ih.mp hread).bounds
              omega
            rw [or_iff_left fun h => hfresh h.1]
            simp [hnew]
          next hold => simp [hold]
      | read other => simp [perform]
      | release other =>
          change ((after steps).release other).read? (some handle) = some text ↔ _
          rw [read?_release]
          split
          next heq => simp [heq]
          next hne => simp [hne]

/-- The handles with a text are different ones. -/
theorem Reachable.nodup_live {table : HandleTable} (h : table.Reachable) :
    (table.live.map Prod.fst).Nodup := by
  induction h with
  | empty => exact List.nodup_nil
  | alloc text htable ih =>
      refine List.nodup_cons.mpr ⟨?_, ih⟩
      intro hmem
      obtain ⟨entry, hentry, heq⟩ := List.mem_map.mp hmem
      have hle := htable.le_issued entry hentry
      omega
  | release handle _ ih =>
      rw [live_release]
      exact ih.sublist (List.filter_sublist.map Prod.fst)

theorem mem_live_iff {table : HandleTable} {handle : Nat} :
    handle ∈ table.live.map Prod.fst ↔ table.read? (some handle) ≠ none := by
  constructor
  · intro hmem
    obtain ⟨entry, hentry, rfl⟩ := List.mem_map.mp hmem
    exact read?_ne_none_of_mem hentry
  · intro hread
    obtain ⟨text, htext⟩ := Option.ne_none_iff_exists'.mp hread
    exact List.mem_map.mpr ⟨(handle, text), mem_of_lookup htext, rfl⟩

/-- Of the handles that were given out, those without a text are the ones that were released. -/
theorem read?_after_eq_none_iff (hpos : 1 ≤ handle) (hle : handle ≤ (allocated steps).length) :
    (after steps).read? (some handle) = none ↔ WasReleased steps handle := by
  constructor
  · intro hnone
    obtain ⟨text, later, hissues⟩ := exists_issues hpos hle
    refine ⟨text, later, hissues, ?_⟩
    by_contra hkept
    rw [(read?_after steps handle text).mpr ⟨later, hissues, hkept⟩] at hnone
    cases hnone
  · rintro ⟨text, later, hissues, hreleased⟩
    rw [Option.eq_none_iff_forall_ne_some]
    intro other hread
    obtain ⟨rest, hother, hkept⟩ := (read?_after steps handle other).mp hread
    rw [← hissues.unique hother] at hkept
    exact hkept hreleased

/-- A table has as many texts as were given handles, less the handles that were released. -/
theorem size_after (steps : List Step) :
    ∃ released : Finset Nat, (∀ handle, handle ∈ released ↔ WasReleased steps handle) ∧
      (after steps).size + released.card = (allocated steps).length := by
  let issued := Finset.Icc 1 (allocated steps).length
  refine ⟨issued.filter fun handle : Nat => (after steps).read? (some handle) = none, ?_, ?_⟩
  · intro handle
    rw [Finset.mem_filter, Finset.mem_Icc]
    constructor
    · rintro ⟨⟨hpos, hle⟩, hnone⟩
      exact (read?_after_eq_none_iff hpos hle).mp hnone
    · rintro ⟨text, later, hissues, hreleased⟩
      have hbounds := hissues.bounds
      exact ⟨hbounds, (read?_after_eq_none_iff hbounds.1 hbounds.2).mpr
        ⟨text, later, hissues, hreleased⟩⟩
  · have hlive : issued.filter (fun handle : Nat => ¬ (after steps).read? (some handle) = none) =
        ((after steps).live.map Prod.fst).toFinset := by
      ext handle
      rw [Finset.mem_filter, Finset.mem_Icc, List.mem_toFinset, mem_live_iff, and_iff_right_iff_imp]
      intro hread
      obtain ⟨text, htext⟩ := Option.ne_none_iff_exists'.mp hread
      exact ((read?_after steps handle text).mp htext).bounds
    have hsize : (after steps).size =
        (issued.filter fun handle : Nat => ¬ (after steps).read? (some handle) = none).card := by
      rw [hlive, List.toFinset_card_of_nodup (reachable_after steps).nodup_live, List.length_map,
        size]
    rw [hsize, Nat.add_comm, Finset.card_filter_add_card_filter_not]
    exact Nat.card_Icc 1 _

theorem read?_eq_some_iff {table : HandleTable} {handle : Option Int} {text : String} :
    table.read? handle = some text ↔
      ∃ n : Nat, handle = some (n : Int) ∧ table.read? (some n) = some text := by
  constructor
  · intro hread
    unfold read? at hread
    split at hread
    next n => exact ⟨n, rfl, hread⟩
    next => cases hread
  · rintro ⟨n, rfl, hread⟩
    exact hread

theorem perform_read_eq_text_iff {table : HandleTable} {handle : Option Int} {text : String} :
    (table.perform (.read handle)).2 = .text text ↔ table.read? handle = some text := by
  simp only [perform]
  split
  next found hread => rw [hread, Answer.text.injEq, Option.some_inj]
  next hread => simp [hread]

theorem perform_read_eq_unknown_iff {table : HandleTable} {handle : Option Int} :
    (table.perform (.read handle)).2 = .unknown (unknownMessage handle) ↔
      table.read? handle = none := by
  simp only [perform]
  split
  next found hread => simp [hread]
  next hread => simp [hread]

/-- Releasing a number without a text changes nothing. -/
theorem release_of_read?_eq_none {table : HandleTable} {handle : Option Int}
    (h : ∀ n : Nat, handle = some (n : Int) → table.read? (some n) = none) :
    table.release handle = table := by
  have hlive : (table.release handle).live = table.live := by
    rw [live_release, List.filter_eq_self]
    intro entry hentry
    rw [decide_eq_true_eq]
    intro heq
    exact read?_ne_none_of_mem hentry (h entry.1 heq.symm)
  unfold release at hlive ⊢
  split at hlive
  next n =>
    dsimp only at hlive ⊢
    rw [hlive]
  next => rfl

/-! ## Several tables -/

/-- A step of a client. It is done on the table that the client passes, or on the default table
if the client passes none. -/
structure Request (κ : Type) where
  table : Option κ
  step : Step

section Tables

variable {κ : Type} [DecidableEq κ]

def performOn (tables : Option κ → HandleTable) (request : Request κ) :
    (Option κ → HandleTable) × Answer :=
  let result := (tables request.table).perform request.step
  (Function.update tables request.table result.1, result.2)

/-- New tables after the steps of any number of clients, in the order in which they are done. -/
def tablesAfter (requests : List (Request κ)) : Option κ → HandleTable :=
  requests.foldl (fun tables request => (performOn tables request).1) fun _ => .empty

/-- The steps that are done on one table. -/
def stepsOn (table : Option κ) (requests : List (Request κ)) : List Step :=
  (requests.filter (·.table = table)).map Request.step

/-- A table is what its own steps make of it. -/
theorem tablesAfter_eq (requests : List (Request κ)) (table : Option κ) :
    tablesAfter requests table = after (stepsOn table requests) := by
  induction requests using List.reverseRecOn with
  | nil => rfl
  | append_singleton requests request ih =>
      have hafter : tablesAfter (requests ++ [request]) =
          (performOn (tablesAfter requests) request).1 := by
        rw [tablesAfter, List.foldl_append]
        rfl
      rw [hafter, stepsOn, List.filter_append, List.map_append]
      change Function.update (tablesAfter requests) request.table _ table = _
      by_cases htable : request.table = table
      · subst htable
        rw [Function.update_self, ih, List.filter_singleton, decide_eq_true rfl]
        exact (after_concat _ _).symm
      · rw [Function.update_of_ne (Ne.symm htable), ih, List.filter_singleton,
          decide_eq_false htable]
        exact congrArg after (List.append_nil _).symm

/-- Handles are never used again. After any steps of any clients on any tables, in any order, the
next handle of a table is one more than the number of its texts so far. A handle is read as the
text that this table gave it to unless it was released since, and no other number is read. The
size of a table is the number of its texts, less the handles that were released after they were
given out; to release anything else changes nothing. What is done on one table, the default one
or another, changes no other table. -/
theorem handles_never_reused (requests : List (Request κ)) (table : Option κ) :
    let tables := tablesAfter requests
    let steps := stepsOn table requests
    (∀ text, (performOn tables ⟨table, .alloc text⟩).2 =
      .issued ((allocated steps).length + 1)) ∧
    (∀ handle, (performOn tables ⟨table, .read handle⟩).1 = tables ∧
      (∀ text, (performOn tables ⟨table, .read handle⟩).2 = .text text ↔
        ∃ n : Nat, handle = some (n : Int) ∧ IsLive steps n text) ∧
      ((performOn tables ⟨table, .read handle⟩).2 = .unknown (unknownMessage handle) ↔
        ∀ n : Nat, handle = some (n : Int) → ∀ text, ¬ IsLive steps n text)) ∧
    (∃ released : Finset Nat, (∀ n, n ∈ released ↔ WasReleased steps n) ∧
      (tables table).size + released.card = (allocated steps).length) ∧
    (∀ handle, (handle = none ∨ handle = some 0 ∨
        (∀ n : Nat, handle = some (n : Int) → ∀ text later, ¬ Issues steps n text later) ∨
        (∃ n : Nat, handle = some (n : Int) ∧ WasReleased steps n)) →
      (performOn tables ⟨table, .release handle⟩).1 = tables) ∧
    ∀ step other, other ≠ table → (performOn tables ⟨table, step⟩).1 other = tables other := by
  intro tables steps
  have htable : tables table = after steps := tablesAfter_eq requests table
  refine ⟨?_, ?_, ?_, ?_, ?_⟩
  · intro text
    change Answer.issued ((tables table).issued + 1) = _
    rw [htable, issued_after]
  · intro handle
    have hread : ∀ text, (tables table).read? handle = some text ↔
        ∃ n : Nat, handle = some (n : Int) ∧ IsLive steps n text := by
      intro text
      rw [read?_eq_some_iff, htable]
      simp only [read?_after]
    refine ⟨Function.update_eq_self table tables, fun text => ?_, ?_⟩
    · exact perform_read_eq_text_iff.trans (hread text)
    · refine perform_read_eq_unknown_iff.trans ?_
      rw [Option.eq_none_iff_forall_ne_some]
      constructor
      · intro hnone n hn text hlive
        exact hnone text ((hread text).mpr ⟨n, hn, hlive⟩)
      · intro hnot text hsome
        obtain ⟨n, hn, hlive⟩ := (hread text).mp hsome
        exact hnot n hn text hlive
  · rw [htable]
    exact size_after steps
  · intro handle hidle
    have hnone : ∀ n : Nat, handle = some (n : Int) → (tables table).read? (some n) = none := by
      intro n hn
      rw [htable, Option.eq_none_iff_forall_ne_some]
      intro text hread
      obtain ⟨later, hissues, hkept⟩ := (read?_after steps n text).mp hread
      rcases hidle with rfl | rfl | hnever | ⟨m, rfl, other, rest, hother, hreleased⟩
      · cases hn
      · have hzero : n = 0 := by simpa using hn.symm
        have hpos := hissues.bounds.1
        omega
      · exact hnever n hn text later hissues
      · obtain rfl : m = n := Int.ofNat_inj.mp (Option.some.inj hn)
        rw [hother.unique hissues] at hreleased
        exact hkept hreleased
    change Function.update tables table ((tables table).release handle) = tables
    rw [release_of_read?_eq_none hnone]
    exact Function.update_eq_self table tables
  · intro step other hother
    exact Function.update_of_ne hother _ _

end Tables

/-- A handle that is released before it is given out is read all the same. -/
example : (after [.release (some 1), .alloc "a", .alloc "b", .release (some 2)]).live =
    [(1, "a")] := by decide

end ColumnFormula.HandleTable
