import TableFeed.Column

/-!
Storage of one field in an array, which has a slot for every row up to the highest one written
since the last clear. Rows below it that were never written hold the absent value, and rows past
its end read as absent.
-/

namespace TableFeed

/-- Values by row, one slot after the other. -/
structure Slots (t : DataType) where
  values : Array t.Carrier := #[]

namespace Slots

variable {t : DataType}

instance : Inhabited (Slots t) := ⟨{}⟩

def length (s : Slots t) : Nat := s.values.size

def get (s : Slots t) (row : RowId) : t.Carrier := s.values.getD row.toNat t.absent

/-- At least `n` slots; those that are added hold the absent value. -/
def grow (s : Slots t) (n : Nat) : Slots t :=
  ⟨s.values ++ Array.replicate (n - s.values.size) t.absent⟩

/-- Writes into the slot of `row` if there is one. -/
def put (s : Slots t) (row : RowId) (a : t.Carrier) : Slots t :=
  ⟨s.values.setIfInBounds row.toNat a⟩

def set (s : Slots t) (row : RowId) (a : t.Carrier) : Slots t := (s.grow (row.toNat + 1)).put row a

/-- Makes `row` read as absent; the slots stay. -/
def reset (s : Slots t) (row : RowId) : Slots t := s.put row t.absent

def clear (_ : Slots t) : Slots t := {}

end Slots

/-- The storage of a field whose type is known only at run time. -/
structure Field where
  type : DataType
  slots : Slots type := {}

namespace Field

def get (f : Field) (row : RowId) : Value := ⟨f.type, f.slots.get row⟩

/-- Writes a value; one of another type is refused and changes nothing. -/
def set (f : Field) (row : RowId) (v : Value) : Except Error Field :=
  match v.as? f.type with
  | some a => .ok { f with slots := f.slots.set row a }
  | none => .error (.typeMismatch f.type v.type)

def reset (f : Field) (row : RowId) : Field := { f with slots := f.slots.reset row }

def clear (f : Field) : Field := { f with slots := f.slots.clear }

def length (f : Field) : Nat := f.slots.length

def isEmpty (f : Field) : Bool := f.length == 0

end Field

end TableFeed
