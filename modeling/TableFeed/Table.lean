import TableFeed.Publisher

/-!
Tables. A table owns a sheet, the ids of its rows and an output. Changes are gathered in a batch
and told when the table fires; an id removed in a batch is not used again before the batch has been
told.
-/

namespace TableFeed

structure Table where
  sheet : Sheet
  /-- The sheet that the output still shows, while another one waits for the next pass. -/
  shelved : Option Sheet := none
  rows : RowIds := {}
  batch : Batch := {}
  publisher : Publisher

namespace Table

/-- A table without rows whose schema is published at once. -/
def create (schema : Schema) : Table :=
  { sheet := .ofSchema schema, publisher := .showing schema ∅ }

instance : Inhabited Table := ⟨create default⟩

def schema (t : Table) : Schema := t.sheet.schema

/-- The sheet that inputs read. -/
def shown (t : Table) : Sheet := t.shelved.getD t.sheet

def isLive (t : Table) (row : RowId) : Bool := t.rows.isLive row

def size (t : Table) : Nat := t.rows.size

def isEmpty (t : Table) : Bool := t.rows.isEmpty

def hasPendingChanges (t : Table) : Bool := !t.batch.isEmpty

/-- Clears and frees a row of which nothing was recorded. -/
def discard (t : Table) (row : RowId) : Table :=
  { t with sheet := t.sheet.resetRow row
           rows := match t.rows.release row with
             | .ok rows => rows
             | .error _ => t.rows }

/-- Inserts a row and records it as added. Gives the row the writer wrote to; if the writer fails,
the row is discarded. -/
def insert (t : Table) (writes : List Write) : Table × RowId × Except Error Unit :=
  let (rows, row) := t.rows.allocate
  let (sheet, _, result) := t.sheet.writeRow [] row writes ∅
  let t := { t with rows := rows, sheet := sheet }
  match result with
  | .ok () => ({ t with batch := t.batch.add row }, row, .ok ())
  | .error e => (t.discard row, row, .error e)

/-- Writes to a live row outside the locked fields. What was written before a failure stays and is
recorded. -/
def updateLocked (t : Table) (locked : List FieldId) (row : RowId) (writes : List Write) :
    Table × Except Error FieldSet :=
  if t.isLive row then
    let (sheet, written, result) := t.sheet.writeRow locked row writes ∅
    ({ t with sheet := sheet, batch := t.batch.changeFields row written },
      result.map fun _ => written)
  else (t, .error (.invalidRow row))

/-- Writes to a live row. Gives the fields written. -/
def update (t : Table) (row : RowId) (writes : List Write) : Table × Except Error FieldSet :=
  t.updateLocked [] row writes

def remove (t : Table) (row : RowId) : Except Error Table := do
  let rows ← t.rows.retire row
  return { t with rows := rows, batch := t.batch.remove row }

/-- Reads a cell. A row that is not live reads as absent. -/
def get (t : Table) (row : RowId) (field : FieldRef) : Except Error Value := do
  let id ← t.sheet.resolve field
  match t.sheet.field? id with
  | none => throw (.fieldNotFound (.id id))
  | some f => return if t.isLive row then f.value row else .absent f.info.type

/-- Replaces the schema and keeps the live rows, with the values of the fields that keep their
name and type. Inputs learn of it in the next pass. -/
def replaceSchema (t : Table) (schema : Schema) : Table :=
  { t with
    sheet := (Sheet.ofSchema schema).carryOver t.sheet t.rows.liveRows
    shelved := some t.shown
    publisher := t.publisher.update (some schema) }

/-- Hands the batch to the output. Gives what each attached input is told. -/
def publish (t : Table) : Table × List Notice :=
  let (publisher, notices) := t.publisher.publish t.rows.live t.batch
  ({ t with publisher := publisher, batch := {}, shelved := none }, notices)

/-- Clears the rows removed in the batch that was told and makes their ids usable. -/
def settle (t : Table) : Table :=
  { t with sheet := t.rows.retired.foldl Sheet.resetRow t.sheet, rows := t.rows.recycle }

/-- Tells the batch to the inputs and starts a new one. -/
def fire (t : Table) : Table × List Notice :=
  let (t, notices) := t.publish
  (t.settle, notices)

end Table

end TableFeed
