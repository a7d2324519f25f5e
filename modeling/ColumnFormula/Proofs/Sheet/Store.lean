import ColumnFormula.Proofs.Lookup
import ColumnFormula.Sheet.Store

/-!
# What a store of formulas holds

A store is a map: setting a cell binds this cell and taking its formula away unbinds it, while
every other cell keeps what it has. The entries are exactly the cells that are bound, each once,
and since they are in order, the map determines the store: entries that were kept in any other
order would come to the same where they are sorted by their cells.
-/

namespace ColumnFormula.FormulaStore

variable {cell : CellRef} {formula : String}

theorem lookup_insertEntry (cell other : CellRef) (formula : String)
    (entries : List (CellRef × String)) :
    (insertEntry cell formula entries).lookup other =
      if other = cell then some formula else entries.lookup other := by
  induction entries with
  | nil => exact lookup_cons_eq_ite other (cell, formula) []
  | cons entry entries ih =>
      unfold insertEntry
      split
      · exact lookup_cons_eq_ite other (cell, formula) (entry :: entries)
      next hlt =>
        split
        next heq =>
          subst heq
          rw [lookup_cons_eq_ite, lookup_cons_eq_ite]
          by_cases hother : other = entry.1 <;> simp [hother]
        next hne =>
          rw [lookup_cons_eq_ite, lookup_cons_eq_ite, ih]
          by_cases hother : other = entry.1
          · rw [if_pos hother, if_pos hother, if_neg (hother.trans_ne (Ne.symm hne))]
          · rw [if_neg hother, if_neg hother]

theorem get?_insert (store : FormulaStore) (cell other : CellRef) (formula : String) :
    (store.insert cell formula).get? other =
      if other = cell then some formula else store.get? other :=
  lookup_insertEntry cell other formula store.entries

theorem get?_erase (store : FormulaStore) (cell other : CellRef) :
    (store.erase cell).get? other = if other = cell then none else store.get? other := by
  refine (lookup_filter store.entries (fun key => decide (key ≠ cell)) other).trans ?_
  by_cases hother : other = cell <;> simp [hother, get?]

theorem nodup_cells (store : FormulaStore) : store.cells.Nodup := by
  refine List.pairwise_map.mpr (store.ascending.imp ?_)
  intro a b hlt heq
  rw [heq] at hlt
  exact CellRef.lt_irrefl b.1 hlt

theorem mem_entries_iff {store : FormulaStore} :
    (cell, formula) ∈ store.entries ↔ store.get? cell = some formula :=
  ⟨lookup_of_mem store.nodup_cells, mem_of_lookup⟩

theorem nodup_entries (store : FormulaStore) : store.entries.Nodup := by
  refine store.ascending.imp ?_
  rintro a _ hlt rfl
  exact CellRef.lt_irrefl a.1 hlt

/-- A store is determined by what it holds, since its entries are in order. -/
theorem eq_of_get?_eq {store other : FormulaStore} (h : store.get? = other.get?) :
    store = other := by
  have hperm : store.entries.Perm other.entries := by
    rw [List.perm_ext_iff_of_nodup store.nodup_entries other.nodup_entries]
    rintro ⟨cell, formula⟩
    rw [mem_entries_iff, mem_entries_iff, h]
  have hentries : store.entries = other.entries := by
    refine hperm.eq_of_pairwise (fun a b _ _ hab hba => ?_) store.ascending other.ascending
    exact absurd (CellRef.lt_trans hab hba) (CellRef.lt_irrefl a.1)
  cases store
  cases other
  exact (FormulaStore.mk.injEq ..).mpr hentries

/-! ## Other arrangements -/

/-- Items in any order, sorted by their cells, are those whose cells ascend. -/
theorem mergeSort_of_perm {α : Type} (key : α → CellRef) {items sorted : List α}
    (hsorted : sorted.Pairwise fun a b => key a < key b) (h : items.Perm sorted) :
    items.mergeSort (fun a b => decide (¬ key b < key a)) = sorted := by
  have hcases {a b : α} (ha : a ∈ sorted) (hb : b ∈ sorted) :
      a = b ∨ key a < key b ∨ key b < key a :=
    List.Pairwise.forall_of_forall_of_flip (R := fun a b => a = b ∨ key a < key b ∨ key b < key a)
      (fun _ _ => .inl rfl) (hsorted.imp fun hlt => .inr (.inl hlt))
      (hsorted.imp fun hlt => .inr (.inr hlt)) ha hb
  have hordered : (items.mergeSort fun a b => decide (¬ key b < key a)).Pairwise
      fun a b => ¬ key b < key a := by
    refine (List.pairwise_mergeSort ?_ ?_ items).imp of_decide_eq_true
    · intro a b c hab hbc
      rw [decide_eq_true_eq, CellRef.lt_def] at *
      omega
    · intro a b
      rw [Bool.or_eq_true, decide_eq_true_eq, decide_eq_true_eq, CellRef.lt_def, CellRef.lt_def]
      omega
  have hascending : sorted.Pairwise fun a b => ¬ key b < key a :=
    hsorted.imp fun hlt hback => CellRef.lt_irrefl _ (CellRef.lt_trans hlt hback)
  have hperm := (List.mergeSort_perm items fun a b => decide (¬ key b < key a)).trans h
  refine hperm.eq_of_pairwise (fun a b ha hb hab hba => ?_) hordered hascending
  rcases hcases (hperm.mem_iff.mp ha) hb with heq | hlt | hlt
  · exact heq
  · exact absurd hlt hba
  · exact absurd hlt hab

/-- Entries in any order, sorted by their cells, are the entries of the store. -/
theorem mergeSort_of_perm_entries {store : FormulaStore} {entries : List (CellRef × String)}
    (h : entries.Perm store.entries) :
    entries.mergeSort (fun a b => decide (¬ b.1 < a.1)) = store.entries :=
  mergeSort_of_perm Prod.fst store.ascending h

end ColumnFormula.FormulaStore
