import ColumnFormula.Handles

/-!
# What a handle means

A handle that is given out is greater than every one before it, so in a table that came about by
giving out and releasing handles, a new handle never is one that still has a text. Giving it out
adds its text and changes nothing else.
-/

namespace ColumnFormula.HandleTable

/-- Tables that come about by giving out and releasing handles. -/
inductive Reachable : HandleTable → Prop
  | empty : Reachable .empty
  | alloc {table : HandleTable} (text : String) :
      Reachable table → Reachable (table.alloc text).1
  | release {table : HandleTable} (handle : Option Int) :
      Reachable table → Reachable (table.release handle)

variable {table : HandleTable}

@[simp] theorem read?_natCast (n : Nat) : table.read? (some n) = table.live.lookup n := rfl

theorem read?_ne_none_of_mem {entry : Nat × String} (h : entry ∈ table.live) :
    table.read? (some entry.1) ≠ none := by
  intro hnone
  rw [read?_natCast, List.lookup_eq_none_iff] at hnone
  simpa using hnone entry h

/-- Handles count up, so none is ahead of the last that was given out. -/
theorem Reachable.le_issued (h : table.Reachable) : ∀ entry ∈ table.live, entry.1 ≤ table.issued := by
  induction h with
  | empty =>
      intro entry hentry
      cases hentry
  | alloc text _ ih =>
      intro entry hentry
      rcases List.mem_cons.mp hentry with rfl | hentry
      · exact Nat.le_refl _
      · exact Nat.le_succ_of_le (ih entry hentry)
  | release handle _ ih =>
      intro entry hentry
      unfold HandleTable.release at hentry ⊢
      split at hentry
      · exact ih entry (List.mem_filter.mp hentry).1
      · exact ih entry hentry

/-- The next handle has no text yet. -/
theorem Reachable.read?_next (h : table.Reachable) :
    table.read? (some (table.issued + 1 : Nat)) = none := by
  rw [read?_natCast, List.lookup_eq_none_iff]
  intro entry hentry
  have hle := h.le_issued entry hentry
  have hne : table.issued + 1 ≠ entry.1 := by omega
  simpa using hne

theorem read?_alloc_self (table : HandleTable) (text : String) :
    (table.alloc text).1.read? (some (table.alloc text).2) = some text := by
  rw [read?_natCast]
  exact List.lookup_cons_self

theorem read?_alloc_of_ne (table : HandleTable) (text : String) {other : Option Int}
    (h : other ≠ some ((table.alloc text).2 : Int)) :
    (table.alloc text).1.read? other = table.read? other := by
  unfold read?
  split
  next n =>
    have hne : n ≠ table.issued + 1 := by
      rintro rfl
      exact h rfl
    dsimp only [alloc]
    rw [List.lookup_cons, beq_false_of_ne hne]
  next => rfl

theorem size_alloc (table : HandleTable) (text : String) :
    (table.alloc text).1.size = table.size + 1 :=
  List.length_cons

/-! ## Releasing -/

theorem live_release (table : HandleTable) (handle : Option Int) :
    (table.release handle).live = table.live.filter fun entry => some (entry.1 : Int) ≠ handle := by
  unfold release
  split
  next n =>
    have hne : ∀ m : Nat, m ≠ n ↔ some (m : Int) ≠ some (.ofNat n) := by
      intro m
      rw [Ne, Ne, Option.some_inj]
      exact not_congr Int.ofNat_inj.symm
    exact List.filter_congr fun entry _ => decide_eq_decide.mpr (hne entry.1)
  next hnot =>
    symm
    rw [List.filter_eq_self]
    intro entry _
    simpa using fun heq => hnot entry.1 heq.symm

end ColumnFormula.HandleTable
