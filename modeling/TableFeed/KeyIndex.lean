import TableFeed.RowIds

/-!
Keys and the rows they stand for. The key of a table's row is the list of its field values; equal
keys have equal bits, so a key made of floating point values is found again whatever they are.
-/

namespace TableFeed

abbrev Key := List Value

/-- Which row each key stands for. Any type whose equality is decidable can serve for keys. -/
structure KeyIndex (κ : Type := Key) where
  entries : List (κ × RowId) := []

namespace KeyIndex

variable {κ : Type}

instance : Inhabited (KeyIndex κ) := ⟨{}⟩

section Lookup

variable [DecidableEq κ]

def lookup (ix : KeyIndex κ) (key : κ) : Option RowId := AscMap.lookIn key ix.entries

/-- The row of a key, allocated if the key is new. Gives whether it was. -/
def intern (ix : KeyIndex κ) (ids : RowIds) (key : κ) : KeyIndex κ × RowIds × RowId × Bool :=
  match ix.lookup key with
  | some row => (ix, ids, row, false)
  | none =>
    let (ids, row) := ids.allocate
    (⟨(key, row) :: ix.entries⟩, ids, row, true)

/-- Drops a key and leaves its row as it is. -/
def forget (ix : KeyIndex κ) (key : κ) : KeyIndex κ :=
  ⟨ix.entries.filter fun e => decide (e.1 ≠ key)⟩

/-- Drops a key and frees its row. Gives the row, if the key was there. -/
def remove (ix : KeyIndex κ) (ids : RowIds) (key : κ) : KeyIndex κ × RowIds × Option RowId :=
  match ix.lookup key with
  | none => (ix, ids, none)
  | some row =>
    let ids := match ids.release row with
      | .ok ids => ids
      | .error _ => ids
    (ix.forget key, ids, some row)

end Lookup

def size (ix : KeyIndex κ) : Nat := ix.entries.length

def isEmpty (ix : KeyIndex κ) : Bool := ix.entries.isEmpty

def clear (_ : KeyIndex κ) : KeyIndex κ := {}

end KeyIndex

end TableFeed
