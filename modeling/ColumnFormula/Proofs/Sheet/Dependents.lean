import ColumnFormula.Proofs.Sheet.Passes
import ColumnFormula.Proofs.Sheet.Store
import ColumnFormula.Proofs.Text.Trim

/-!
# Recalculating only what depends on a column

A formula reads one column at most: the first whose name matches its argument. When the cells
of one column change, the formulas whose argument does not name that column read what they
read before, so it is enough to recalculate the others.
-/

namespace ColumnFormula

/-! ## Tables that agree outside of one column -/

namespace Table

/-- Whether two tables have columns of the same names, with the same cells except perhaps for
the column in one place. -/
def AgreesOutside (before : Table) (place : Nat) (after : Table) : Prop :=
  before.names = after.names ∧ ∀ i, i ≠ place → before.columns[i]? = after.columns[i]?

/-- Looking for a column by its name never comes to a column that does not match. -/
theorem find?_eq_of_agree {p : Column → Bool} {xs ys : List Column} {place : Nat}
    (hp : ∀ x y : Column, x.name = y.name → p x = p y)
    (hnames : xs.map (·.name) = ys.map (·.name))
    (hsame : ∀ i, i ≠ place → xs[i]? = ys[i]?)
    (hplace : ∀ y, ys[place]? = some y → p y = false) : xs.find? p = ys.find? p := by
  induction xs generalizing ys place with
  | nil =>
      rw [List.map_nil, eq_comm, List.map_eq_nil_iff] at hnames
      rw [hnames]
  | cons x xs ih =>
      cases ys with
      | nil => simp at hnames
      | cons y ys =>
          obtain ⟨hname, hrest⟩ := List.cons.inj hnames
          cases place with
          | zero =>
              -- The changed column does not match, and the columns behind it are the same.
              have hy : p y = false := hplace y rfl
              have hx : p x = false := (hp x y hname).trans hy
              have htail : xs = ys := List.ext_getElem? fun i => hsame (i + 1) (by omega)
              rw [List.find?_cons_of_neg (by simp [hx]), List.find?_cons_of_neg (by simp [hy]),
                htail]
          | succ place =>
              obtain rfl : x = y := by simpa using hsame 0 (by omega)
              have htail : xs.find? p = ys.find? p := by
                apply @ih ys place hrest
                · intro i hi
                  simpa using hsame (i + 1) (by omega)
                · intro y hy
                  exact hplace y (by simpa using hy)
              rw [List.find?_cons, List.find?_cons, htail]

/-- A name that does not mean the changed column has the same cells, or none for the same
reason. -/
theorem cells_eq_of_agreesOutside {before after : Table} {place : Nat}
    (hagree : before.AgreesOutside place after) {name : String}
    (hkey : ∀ column, after.columns[place]? = some column →
      nameKey column.name ≠ nameKey name) :
    before.cells name = after.cells name := by
  obtain ⟨hnames, hsame⟩ := hagree
  have hfind : before.columns.find? (fun column => nameKey column.name == nameKey name) =
      after.columns.find? (fun column => nameKey column.name == nameKey name) := by
    apply find?_eq_of_agree (fun x y hxy => by rw [hxy]) hnames hsame
    intro column hcolumn
    exact beq_false_of_ne (hkey column hcolumn)
  unfold cells column
  rw [hfind, hnames]

end Table

/-! ## The argument of a formula -/

namespace Formula

/-- An argument has no blanks around it. -/
theorem strip_argument {s : List Char} {formula : Formula} (h : ofChars s = .ok formula) :
    Text.strip formula.argument.toList = formula.argument.toList := by
  unfold ofChars at h
  split at h
  next rest _ =>
    unfold ofBody at h
    split at h
    · simp at h
    next before after _ =>
      split at h
      · obtain rfl := Except.ok.inj h
        simp only [String.toList_ofList, Text.strip_strip]
      · simp at h
  · simp at h

theorem ofRaw_text (s : String) : ofRaw (.text s) = (parse s).mapError .malformed := rfl

end Formula

namespace Sheet

/-- A formula depends on the columns with the key of its argument. -/
theorem dependsOn_iff {key : List Char} {formula : String} :
    dependsOn key formula = true ↔
      ∃ parsed, Formula.parse formula = .ok parsed ∧ Table.nameKey parsed.argument = key := by
  unfold dependsOn
  cases hparse : Formula.parse formula with
  | error fault => simp
  | ok parsed => simp [Table.nameKey, Formula.strip_argument hparse]

/-- A formula that does not depend on the changed column has the same value, or fails for the
same reason. -/
theorem evaluate_eq_of_agreesOutside {before after : Table} {place : Nat} {column : Column}
    (hagree : before.AgreesOutside place after) (hcolumn : after.columns[place]? = some column)
    {formula : String} (hdep : dependsOn (Table.nameKey column.name) formula = false) :
    evaluate (.text formula) before = evaluate (.text formula) after := by
  unfold evaluate
  rw [Formula.ofRaw_text]
  cases hparse : Formula.parse formula with
  | error fault => simp only [Except.mapError, bind, Except.bind]
  | ok parsed =>
      have hcells : before.cells parsed.argument = after.cells parsed.argument := by
        apply Table.cells_eq_of_agreesOutside hagree
        intro other hother hkey
        obtain rfl : column = other := Option.some.inj (hcolumn.symm.trans hother)
        rw [Bool.eq_false_iff] at hdep
        exact hdep (dependsOn_iff.mpr ⟨parsed, hparse, hkey.symm⟩)
      simp only [Except.mapError, bind, Except.bind, hcells]

end Sheet

/-! ## Recalculating -/

namespace Sheet

variable {sheet : Sheet} {before after : Table} {place : Nat} {column : Column}

theorem dependents_subset {key : List Char} {cell : CellRef} (h : cell ∈ sheet.dependents key) :
    cell ∈ sheet.store.cells := by
  obtain ⟨entry, hentry, rfl⟩ := List.mem_map.mp h
  exact List.mem_map_of_mem (List.mem_filter.mp hentry).1

/-- A cell whose formula does not depend on the changed column shows what it showed. -/
theorem shown_eq_of_not_mem_dependents (hagree : before.AgreesOutside place after)
    (hcolumn : after.columns[place]? = some column) {cell : CellRef}
    (hcell : cell ∈ sheet.store.cells)
    (hdep : cell ∉ sheet.dependents (Table.nameKey column.name)) :
    sheet.shown before cell = sheet.shown after cell := by
  obtain ⟨⟨_, formula⟩, hentry, rfl⟩ := List.mem_map.mp hcell
  have hformula : dependsOn (Table.nameKey column.name) formula = false := by
    rw [Bool.eq_false_iff]
    intro hdepends
    exact hdep (List.mem_map.mpr ⟨_, List.mem_filter.mpr ⟨hentry, hdepends⟩, rfl⟩)
  unfold shown calculate outcome
  rw [FormulaStore.mem_entries_iff.mp hentry]
  dsimp only
  rw [evaluate_eq_of_agreesOutside hagree hcolumn hformula]

/-- Incremental recalculation agrees with full recalculation. When the cells of one column
change, whatever a recalculation of its dependents answers is what a full recalculation
answers, and where it is silent the text from before the change still stands. -/
theorem recalculateDependents_agrees {session : Session} (hquiet : session.sheet.IsQuiet)
    (hagree : before.AgreesOutside place after) (hplace : place < after.columns.length) :
    (∀ table : Table, table.IsCountable →
      ∃ texts, (session.perform (.recalculateAll table)).2.1 = .texts texts ∧
        texts.map (·.1) = session.sheet.store.cells) ∧
    ∀ full, (session.perform (.recalculateAll after)).2.1 = .texts full →
      ∃ part, (session.perform (.recalculateDependents place after)).2.1 = .texts part ∧
        (∀ entry ∈ part, entry ∈ full) ∧
        ∀ old, (session.perform (.recalculateAll before)).2.1 = .texts old →
          ∀ cell ∈ session.sheet.store.cells, ∃ text, full.lookup cell = some text ∧
            (part.lookup cell).or (old.lookup cell) = some text := by
  obtain ⟨column, hcolumn⟩ : ∃ column, after.columns[place]? = some column :=
    ⟨_, List.getElem?_eq_getElem hplace⟩
  constructor
  · intro table hcount
    obtain ⟨texts, hshows⟩ : ∃ texts, session.sheet.Shows table session.sheet.store.cells texts :=
      exists_shows fun cell _ => exists_shown hcount cell
    exact ⟨texts, (answer_recalculateAll_iff hquiet).mpr hshows, hshows.map_fst⟩
  · intro full hfull
    rw [answer_recalculateAll_iff hquiet] at hfull
    obtain ⟨part, hpart⟩ :
        ∃ part, session.sheet.Shows after
          (session.sheet.dependents (Table.nameKey column.name)) part :=
      exists_shows fun cell hcell => hfull.shown_eq (dependents_subset hcell)
    refine ⟨part, (answer_recalculateDependents_iff hquiet hcolumn).mpr hpart, ?_, ?_⟩
    · intro entry hentry
      obtain ⟨hcell, hshown⟩ := hpart.mem_iff.mp hentry
      exact hfull.mem_iff.mpr ⟨dependents_subset hcell, hshown⟩
    · intro old hold cell hcell
      rw [answer_recalculateAll_iff hquiet] at hold
      obtain ⟨text, htext⟩ := hfull.shown_eq hcell
      refine ⟨text, by simp [hfull.lookup, hcell, htext, Except.toOption], ?_⟩
      rw [hpart.lookup, hold.lookup, if_pos hcell]
      by_cases hdep : cell ∈ session.sheet.dependents (Table.nameKey column.name)
      · simp [hdep, htext, Except.toOption]
      · rw [shown_eq_of_not_mem_dependents hagree hcolumn hcell hdep, htext]
        simp [hdep, Except.toOption]

/-- A sheet with a formula for each of two columns, of which the first changes. -/
theorem recalculateDependents_agrees_prices :
    let session : Session := ⟨{ Sheet.start true with
      store := (FormulaStore.empty.insert ⟨0, 0⟩ "= SUM( price )").insert ⟨1, 0⟩ "=MAX(count)" },
      Reporter.start .empty "" .zero⟩
    let before : Table := ⟨[⟨"Price ", [some "1"]⟩, ⟨"count", [some "2", none]⟩]⟩
    let after : Table := ⟨[⟨"Price ", [some "3", some "x"]⟩, ⟨"count", [some "2", none]⟩]⟩
    (session.sheet.IsQuiet ∧ before.AgreesOutside 0 after ∧ 0 < after.columns.length) ∧
      ∃ full part old, (session.perform (.recalculateAll after)).2.1 = .texts full ∧
        (session.perform (.recalculateDependents 0 after)).2.1 = .texts part ∧
        (session.perform (.recalculateAll before)).2.1 = .texts old ∧
        ∀ cell ∈ session.sheet.store.cells, ∃ text, full.lookup cell = some text ∧
          (part.lookup cell).or (old.lookup cell) = some text := by
  intro session before after
  have hquiet : session.sheet.IsQuiet := by simp [IsQuiet, session, start]
  have hagree : before.AgreesOutside 0 after := by
    refine ⟨rfl, fun i hi => ?_⟩
    cases i with
    | zero => exact absurd rfl hi
    | succ i => rfl
  have hplace : 0 < after.columns.length := by decide
  obtain ⟨hanswers, hall⟩ := recalculateDependents_agrees hquiet hagree hplace
  obtain ⟨full, hfull, _⟩ := hanswers after (by unfold Table.IsCountable; decide)
  obtain ⟨old, hold, _⟩ := hanswers before (by unfold Table.IsCountable; decide)
  obtain ⟨part, hpart, _, hcells⟩ := hall full hfull
  exact ⟨⟨hquiet, hagree, hplace⟩, full, part, old, hfull, hpart, hold, hcells old hold⟩

end Sheet

end ColumnFormula
