/-!
# String handles

A program that cannot receive texts receives handles instead, reads the texts behind them
and releases them when it is done. Handles count up from one and are never used again, so a
handle that was released once stays without meaning.
-/

namespace ColumnFormula

/-- Texts by handle. `issued` is the last handle that was given out. -/
structure HandleTable where
  issued : Nat
  live : List (Nat × String)
  deriving DecidableEq, Repr

namespace HandleTable

def empty : HandleTable := ⟨0, []⟩

def size (table : HandleTable) : Nat :=
  table.live.length

def alloc (table : HandleTable) (text : String) : HandleTable × Nat :=
  let handle := table.issued + 1
  (⟨handle, (handle, text) :: table.live⟩, handle)

/-- The text behind a number, if it is a handle that is not released. -/
def read? (table : HandleTable) (handle : Option Int) : Option String :=
  match handle with
  | some (.ofNat n) => table.live.lookup n
  | _ => none

/-- Release a handle; anything that is no live handle is ignored. -/
def release (table : HandleTable) (handle : Option Int) : HandleTable :=
  match handle with
  | some (.ofNat n) => { table with live := table.live.filter (·.1 ≠ n) }
  | _ => table

/-- What is said of a number that has no text behind it. -/
def unknownMessage (handle : Option Int) : String :=
  "Unknown or released string handle: " ++ handle.elim "None" toString

end HandleTable

end ColumnFormula
