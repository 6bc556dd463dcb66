import TableFeed.Sheet

/-!
Change batches: the rows touched between two passes of an output, in the form in which they will
be told. A row is in at most one of the three parts.
-/

namespace TableFeed

abbrev RowSet := AscSet RowId

structure Batch where
  added : RowSet := ∅
  /-- The fields changed on each changed row. -/
  changed : AscMap RowId FieldSet := ∅
  removed : RowSet := ∅
  deriving DecidableEq

namespace Batch

instance : Inhabited Batch := ⟨{}⟩

/-- An added row is told as added only, whatever was recorded of it before. -/
def add (b : Batch) (row : RowId) : Batch :=
  { added := b.added.insert row, changed := b.changed.erase row, removed := b.removed.erase row }

def touches (b : Batch) (row : RowId) : Bool := b.added.contains row || b.removed.contains row

def mergeChange (b : Batch) (row : RowId) (fields : FieldSet) : Batch :=
  { b with changed := b.changed.insert row (((b.changed.find? row).getD ∅).union fields) }

/-- A change to a row that is added or removed in this batch is not told. -/
def changeField (b : Batch) (row : RowId) (field : FieldId) : Batch :=
  if b.touches row then b else b.mergeChange row (AscSet.ofList [field])

def changeFields (b : Batch) (row : RowId) (fields : FieldSet) : Batch :=
  if fields.isEmpty || b.touches row then b else b.mergeChange row fields

/-- Removing a row added in this batch leaves nothing to tell of it. -/
def remove (b : Batch) (row : RowId) : Batch :=
  if b.added.contains row then { b with added := b.added.erase row }
  else { b with changed := b.changed.erase row, removed := b.removed.insert row }

/-- Forgets everything recorded. -/
def clear (_ : Batch) : Batch := {}

/-- Hands over what was recorded and starts again. -/
def take (b : Batch) : Batch × Batch := ({}, b)

/-- The union of the fields changed on any row. -/
def changedFields (b : Batch) : FieldSet := b.changed.values.foldl AscSet.union ∅

def isEmpty (b : Batch) : Bool := b.added.isEmpty && b.changed.isEmpty && b.removed.isEmpty

/-- How many rows are touched. -/
def size (b : Batch) : Nat := b.added.size + b.changed.size + b.removed.size

end Batch

end TableFeed
