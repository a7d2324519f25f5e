/-!
# The formulas of a sheet

A sheet remembers which cells hold which formula. The cells ascend by row and then by
column, so a store is determined by what it holds and not by the order in which formulas
came and went.
-/

namespace ColumnFormula

/-- A cell of a sheet by its row and column. -/
structure CellRef where
  row : Int
  col : Int
  deriving DecidableEq, Repr

namespace CellRef

/-- Cells ascend by row, and in a row by column. -/
instance : LT CellRef where
  lt a b := a.row < b.row ∨ (a.row = b.row ∧ a.col < b.col)

theorem lt_def {a b : CellRef} : a < b ↔ a.row < b.row ∨ (a.row = b.row ∧ a.col < b.col) :=
  Iff.rfl

instance (a b : CellRef) : Decidable (a < b) :=
  decidable_of_iff _ lt_def.symm

theorem lt_trans {a b c : CellRef} (hab : a < b) (hbc : b < c) : a < c := by
  rw [lt_def] at *
  omega

theorem lt_irrefl (a : CellRef) : ¬a < a := by
  rw [lt_def]
  omega

theorem lt_of_not_lt {a b : CellRef} (hlt : ¬a < b) (hne : a ≠ b) : b < a := by
  rw [lt_def] at *
  have : ¬(a.row = b.row ∧ a.col = b.col) := fun h => hne (by cases a; cases b; simp_all)
  omega

end CellRef

/-- Formulas by cell, in the order of the cells. -/
structure FormulaStore where
  entries : List (CellRef × String)
  ascending : entries.Pairwise (·.1 < ·.1)
  deriving DecidableEq

namespace FormulaStore

/-- Entries with a formula for a cell, in place of the one that it has. -/
def insertEntry (cell : CellRef) (formula : String) :
    List (CellRef × String) → List (CellRef × String)
  | [] => [(cell, formula)]
  | entry :: entries =>
    if cell < entry.1 then (cell, formula) :: entry :: entries
    else if cell = entry.1 then (cell, formula) :: entries
    else entry :: insertEntry cell formula entries

theorem mem_insertEntry {cell : CellRef} {formula : String} {entries : List (CellRef × String)}
    {entry : CellRef × String} (h : entry ∈ insertEntry cell formula entries) :
    entry = (cell, formula) ∨ entry ∈ entries := by
  induction entries with
  | nil => simpa [insertEntry] using h
  | cons first entries ih =>
    unfold insertEntry at h
    split at h
    · simpa using h
    · split at h
      · rcases List.mem_cons.1 h with rfl | h
        · exact .inl rfl
        · exact .inr (List.mem_cons_of_mem _ h)
      · rcases List.mem_cons.1 h with rfl | h
        · exact .inr List.mem_cons_self
        · exact (ih h).imp id (List.mem_cons_of_mem _)

theorem pairwise_insertEntry {cell : CellRef} {formula : String}
    {entries : List (CellRef × String)} (h : entries.Pairwise (·.1 < ·.1)) :
    (insertEntry cell formula entries).Pairwise (·.1 < ·.1) := by
  induction entries with
  | nil => simp [insertEntry]
  | cons first entries ih =>
    obtain ⟨hfirst, hrest⟩ := List.pairwise_cons.1 h
    unfold insertEntry
    split
    next hlt =>
      refine List.pairwise_cons.2 ⟨fun entry hentry => ?_, h⟩
      rcases List.mem_cons.1 hentry with rfl | hentry
      · exact hlt
      · exact CellRef.lt_trans hlt (hfirst entry hentry)
    next hlt =>
      split
      next heq =>
        subst heq
        exact List.pairwise_cons.2 ⟨fun entry hentry => hfirst entry hentry, hrest⟩
      next hne =>
        refine List.pairwise_cons.2 ⟨fun entry hentry => ?_, ih hrest⟩
        rcases mem_insertEntry hentry with rfl | hentry
        · exact CellRef.lt_of_not_lt hlt hne
        · exact hfirst entry hentry

def empty : FormulaStore := ⟨[], .nil⟩

def get? (store : FormulaStore) (cell : CellRef) : Option String :=
  store.entries.lookup cell

def contains (store : FormulaStore) (cell : CellRef) : Bool :=
  (store.get? cell).isSome

def insert (store : FormulaStore) (cell : CellRef) (formula : String) : FormulaStore :=
  ⟨insertEntry cell formula store.entries, pairwise_insertEntry store.ascending⟩

def erase (store : FormulaStore) (cell : CellRef) : FormulaStore :=
  ⟨store.entries.filter (·.1 ≠ cell), store.ascending.filter _⟩

def cells (store : FormulaStore) : List CellRef :=
  store.entries.map (·.1)

end FormulaStore

end ColumnFormula
