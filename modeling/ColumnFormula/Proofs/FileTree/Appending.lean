import ColumnFormula.Log

/-!
# What appending to a file leaves alone

Making folders puts folders only on the way to the last of them, and never where something
stands. So appending to a file extends this file and changes no file that does not stand on
the way to its folder.
-/

namespace ColumnFormula

namespace FileTree

/-! ## Nodes -/

theorem lookup_setNode (path other : Path) (node : Node) (nodes : List (Path × Node)) :
    (setNode path node nodes).lookup other =
      if other = path then some node else nodes.lookup other := by
  induction nodes with
  | nil =>
      by_cases hother : other = path
      · simp [setNode, hother]
      · have hbeq : (other == path) = false := by simpa using hother
        simp [setNode, List.lookup_cons, hother, hbeq]
  | cons entry nodes ih =>
      rcases entry with ⟨first, old⟩
      rw [setNode]
      split
      next hfirst =>
        subst hfirst
        by_cases hother : other = first
        · simp [hother]
        · have hbeq : (other == first) = false := by simpa using hother
          simp [List.lookup_cons, hother, hbeq]
      next hfirst =>
        by_cases hother : other = first
        · subst hother
          simp [hfirst]
        · have hbeq : (other == first) = false := by simpa using hother
          simp only [List.lookup_cons, hbeq]
          exact ih

theorem node?_put_self (tree : FileTree) {path : Path} (node : Node)
    (h : isAncestor path = false) : (tree.put path node).node? path = some node := by
  simp [node?, put, h, lookup_setNode]

theorem node?_put_of_ne (tree : FileTree) {path other : Path} (node : Node) (h : other ≠ path) :
    (tree.put path node).node? other = tree.node? other := by
  simp only [node?, put, lookup_setNode, h, if_false]

/-- Whether what stands at a path is kept; a folder may come to stand where nothing stood. -/
def Keeps (tree extended : FileTree) (path : Path) : Prop :=
  extended.node? path = tree.node? path ∨
    (tree.node? path = none ∧ extended.node? path = some .folder)

theorem Keeps.refl (tree : FileTree) (path : Path) : tree.Keeps tree path :=
  .inl rfl

theorem Keeps.trans {tree middle extended : FileTree} {path : Path} (h : tree.Keeps middle path)
    (hmore : middle.Keeps extended path) : tree.Keeps extended path := by
  rcases h with hsame | ⟨hnone, hfolder⟩
  · rw [Keeps, ← hsame]
    exact hmore
  · rcases hmore with hsame | ⟨hgone, -⟩
    · exact .inr ⟨hnone, hsame.trans hfolder⟩
    · rw [hfolder] at hgone
      cases hgone

/-! ## Making folders -/

theorem node?_makeFoldersFrom {names done other : Path} {tree made : FileTree}
    (h : tree.makeFoldersFrom done names = .ok made) (hother : ¬ other <+: done ++ names) :
    made.node? other = tree.node? other := by
  induction names generalizing done tree with
  | nil =>
      cases h
      rfl
  | cons name names ih =>
      rw [List.append_cons] at hother
      have hne : other ≠ done ++ [name] := by
        rintro rfl
        exact hother (List.prefix_append _ _)
      simp only [makeFoldersFrom] at h
      split at h
      next => cases h
      split at h
      next => cases h
      next => exact ih h hother
      next =>
        rw [ih h hother, node?_put_of_ne _ _ hne]

theorem not_isTooLong_of_makeFoldersFrom {names done : Path} {tree made : FileTree}
    (h : tree.makeFoldersFrom done names = .ok made) : names.any isTooLong = false := by
  induction names generalizing done tree with
  | nil => rfl
  | cons name names ih =>
      simp only [makeFoldersFrom] at h
      split at h
      next => cases h
      next hname =>
        rw [List.any_cons, Bool.or_eq_false_iff]
        refine ⟨by simpa using hname, ?_⟩
        split at h
        next => cases h
        next => exact ih h
        next => exact ih h

theorem isAncestor_of_node?_eq_none {tree : FileTree} {path : Path} (h : tree.node? path = none) :
    isAncestor path = false := by
  unfold node? at h
  split at h
  next => cases h
  next hancestor => simpa using hancestor

theorem keeps_of_makeFoldersFrom {names done other : Path} {tree made : FileTree}
    (h : tree.makeFoldersFrom done names = .ok made) : tree.Keeps made other := by
  induction names generalizing done tree with
  | nil =>
      cases h
      exact .refl _ other
  | cons name names ih =>
      simp only [makeFoldersFrom] at h
      split at h
      next => cases h
      split at h
      next => cases h
      next => exact ih h
      next hnone =>
        apply Keeps.trans _ (ih h)
        by_cases hother : other = done ++ [name]
        · subst hother
          exact .inr ⟨hnone, node?_put_self _ _ (isAncestor_of_node?_eq_none hnone)⟩
        · exact .inl (node?_put_of_ne _ _ hother)

/-- Nothing but folders is made, and only where nothing stood. -/
theorem keeps_of_makeFolders {path other : Path} {tree made : FileTree}
    (h : tree.makeFolders path = .ok made) : tree.Keeps made other :=
  keeps_of_makeFoldersFrom h

/-- Folders are made only on the way to the last of them. -/
theorem node?_makeFolders {path other : Path} {tree made : FileTree}
    (h : tree.makeFolders path = .ok made) (hother : ¬ other <+: path) :
    made.node? other = tree.node? other :=
  node?_makeFoldersFrom h hother

/-! ## Contents -/

/-- The bytes of a file; none where there is no file. -/
def contents (tree : FileTree) (path : Path) : List UInt8 :=
  match tree.node? path with
  | some (.file bytes) => bytes
  | _ => []

/-- What appending does: the bytes are put behind those that are there. -/
theorem eq_put_of_append {tree extended : FileTree} {path : Path} {bytes : List UInt8}
    (h : tree.append path bytes = .ok extended) :
    extended = tree.put path (.file (tree.contents path ++ bytes)) := by
  unfold append modify at h
  unfold FileTree.find at h
  simp only [bind, Except.bind] at h
  split at h
  next => cases h
  next found hfound =>
    have hnode : found = tree.node? path := by
      split at hfound <;> cases hfound
      rfl
    subst hnode
    unfold contents
    split at h
    next hbytes =>
      cases h
      rw [hbytes]
    next => cases h
    next hnone =>
      rw [hnone]
      split at h <;> cases h
      rfl

end FileTree

namespace Log

open FileTree

variable {tree extended : FileTree} {path : Path} {bytes : List UInt8}

theorem exists_of_appendTo (h : appendTo tree path bytes = .ok extended) :
    ∃ made, tree.makeFolders path.dropLast = .ok made ∧
      extended = made.put path (.file (made.contents path ++ bytes)) := by
  simp only [appendTo, bind, Except.bind] at h
  split at h
  next => cases h
  next made hmade => exact ⟨made, hmade, eq_put_of_append h⟩

/-- A file is extended by what is appended to it. -/
theorem node?_appendTo_self (h : appendTo tree path bytes = .ok extended)
    (hpath : isAncestor path = false) :
    extended.node? path = some (.file (tree.contents path ++ bytes)) := by
  obtain ⟨made, hmade, rfl⟩ := exists_of_appendTo h
  have hlonger : ¬ path <+: path.dropLast := by
    intro hbelow
    have hlength := hbelow.length_le
    rw [List.length_dropLast] at hlength
    have hnil : path = [] := List.length_eq_zero_iff.mp (by omega)
    subst hnil
    cases hpath
  rw [node?_put_self _ _ hpath, contents, contents, node?_makeFolders hmade hlonger]

/-- Appending changes nothing that does not stand on the way to the file. -/
theorem node?_appendTo_of_ne {other : Path} (h : appendTo tree path bytes = .ok extended)
    (hother : ¬ other <+: path) : extended.node? other = tree.node? other := by
  obtain ⟨made, hmade, rfl⟩ := exists_of_appendTo h
  have hne : other ≠ path := by
    rintro rfl
    exact hother (List.prefix_refl _)
  have hfolder : ¬ other <+: path.dropLast := fun hbelow =>
    hother (hbelow.trans (List.dropLast_prefix path))
  rw [node?_put_of_ne _ _ hne, node?_makeFolders hmade hfolder]

/-- Besides the file itself, appending makes nothing but folders. -/
theorem keeps_of_appendTo {other : Path} (h : appendTo tree path bytes = .ok extended)
    (hother : other ≠ path) : tree.Keeps extended other := by
  obtain ⟨made, hmade, rfl⟩ := exists_of_appendTo h
  exact (keeps_of_makeFolders hmade).trans (.inl (node?_put_of_ne _ _ hother))

end Log

end ColumnFormula
