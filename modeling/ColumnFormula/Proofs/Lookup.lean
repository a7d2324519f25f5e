import Mathlib.Data.List.Basic

/-!
# Looking up in lists of pairs

A key stands for the value of the first pair that has it. If a key is that of one pair only, its
value is looked up wherever the pair stands, and taking pairs away by their keys leaves the
others to be looked up as before.
-/

namespace ColumnFormula

variable {α β : Type} [BEq α] [LawfulBEq α]

theorem lookup_cons_eq_ite [DecidableEq α] (key : α) (entry : α × β) (entries : List (α × β)) :
    (entry :: entries).lookup key = if key = entry.1 then some entry.2 else entries.lookup key := by
  by_cases heq : key = entry.1
  · rw [List.lookup_cons, if_pos heq, beq_iff_eq.mpr heq]
  · rw [List.lookup_cons, if_neg heq, beq_false_of_ne heq]

theorem lookup_filter (entries : List (α × β)) (p : α → Bool) (key : α) :
    (entries.filter fun entry => p entry.1).lookup key =
      if p key then entries.lookup key else none := by
  induction entries with
  | nil => simp
  | cons entry entries ih =>
      obtain ⟨first, value⟩ := entry
      by_cases heq : key = first
      · subst heq
        cases hp : p key <;> simp [hp, ih]
      · have hbeq : (key == first) = false := beq_false_of_ne heq
        cases hp : p first <;> simp [List.lookup_cons, hp, hbeq, ih]

theorem mem_of_lookup {entries : List (α × β)} {key : α} {value : β}
    (h : entries.lookup key = some value) : (key, value) ∈ entries := by
  obtain ⟨front, back, heq, -⟩ := List.lookup_eq_some_iff.mp h
  rw [heq]
  exact List.mem_append_right front List.mem_cons_self

theorem lookup_of_mem {entries : List (α × β)} (hunique : (entries.map Prod.fst).Nodup) {key : α}
    {value : β} (h : (key, value) ∈ entries) : entries.lookup key = some value := by
  induction entries with
  | nil => cases h
  | cons entry entries ih =>
      rw [List.map_cons, List.nodup_cons] at hunique
      rcases List.mem_cons.mp h with rfl | hmem
      · exact List.lookup_cons_self
      · have hne : key ≠ entry.1 := by
          rintro rfl
          exact hunique.1 (List.mem_map.mpr ⟨(entry.1, value), hmem, rfl⟩)
        rw [List.lookup_cons, beq_false_of_ne hne]
        exact ih hunique.2 hmem

end ColumnFormula
