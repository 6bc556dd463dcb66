import TableFeed.Error
import TableFeed.Ordered.Map
import TableFeed.Value

/-!
Storage of one field: a value for every row. Rows that were never written read as absent. The
slots of a column reach up to the highest row written since the last clear.
-/

namespace TableFeed

/-- The values of one field by row. -/
structure Column (t : DataType) where
  slots : Nat := 0
  cells : AscMap RowId t.Carrier := ∅
  deriving DecidableEq

namespace Column

variable {t : DataType}

instance : Inhabited (Column t) := ⟨{}⟩

def get (c : Column t) (row : RowId) : t.Carrier := (c.cells.find? row).getD t.absent

def set (c : Column t) (row : RowId) (a : t.Carrier) : Column t :=
  { slots := max c.slots (row.toNat + 1), cells := c.cells.insert row a }

/-- Makes `row` read as absent; the slots stay. -/
def reset (c : Column t) (row : RowId) : Column t := { c with cells := c.cells.erase row }

def clear (_ : Column t) : Column t := {}

def isEmpty (c : Column t) : Bool := c.slots == 0

def value (c : Column t) (row : RowId) : Value := ⟨t, c.get row⟩

/-- Writes a value of the column's type and leaves the column alone for any other. -/
def write (c : Column t) (row : RowId) (v : Value) : Column t :=
  match v.as? t with
  | some a => c.set row a
  | none => c

theorem get_set {c : Column t} {row other : RowId} {a : t.Carrier} :
    (c.set row a).get other = if row = other then a else c.get other := by
  simp only [get, set, AscMap.find?_insert]
  split <;> rfl

theorem get_reset {c : Column t} {row other : RowId} :
    (c.reset row).get other = if row = other then t.absent else c.get other := by
  simp only [get, reset, AscMap.find?_erase]
  split <;> rfl

@[simp] theorem get_clear {c : Column t} {row : RowId} : c.clear.get row = t.absent := rfl

end Column

end TableFeed
