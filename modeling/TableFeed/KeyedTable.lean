import TableFeed.KeyIndex
import TableFeed.Table

/-!
Tables whose rows are found by a key. The key of a row is written into its key fields, which
nothing else can write.
-/

namespace TableFeed

structure KeyedTable where
  table : Table
  keyFields : List FieldId
  keys : KeyIndex := {}

namespace KeyedTable

/-- A table keyed by the fields of those names, of which there must be one. -/
def create (schema : Schema) (names : List String) : Except Error KeyedTable := do
  if names.isEmpty then throw (.invalidSchema .noKeyField)
  let ids ← names.mapM fun n =>
    match schema.fieldId? n with
    | some id => .ok id
    | none => .error (.invalidSchema (.unknownKeyField n))
  return { table := .create schema, keyFields := ids }

instance : Inhabited KeyedTable := ⟨{ table := default, keyFields := [] }⟩

def lookup (t : KeyedTable) (key : Key) : Option RowId := t.keys.lookup key

/-- Writes the values of a key into its fields, up to the first that does not fit. -/
def writeKey (row : RowId) : List (FieldId × Value) → Sheet → Sheet × Except Error Unit
  | [], s => (s, .ok ())
  | (id, v) :: rest, s =>
    match s.set row id v with
    | .ok s => writeKey row rest s
    | .error e => (s, .error e)

/-- Writes the key of a new row, then what the writer writes. -/
def writeNew (t : KeyedTable) (row : RowId) (key : Key) (writes : List Write) :
    Sheet × Except Error Unit :=
  let (sheet, result) := writeKey row (t.keyFields.zip key) t.table.sheet
  match result with
  | .error e => (sheet, .error e)
  | .ok () =>
    let (sheet, _, result) := sheet.writeRow t.keyFields row writes ∅
    (sheet, result)

/-- Updates the row of a key, or inserts one if the key is new. Gives the row and whether it was
inserted. A row that cannot be written is not inserted. -/
def upsert (t : KeyedTable) (key : Key) (writes : List Write) :
    KeyedTable × Except Error (RowId × Bool) :=
  match t.lookup key with
  | some row =>
    let (table, result) := t.table.updateLocked t.keyFields row writes
    ({ t with table := table }, result.map fun _ => (row, false))
  | none =>
    if key.length ≠ t.keyFields.length then
      (t, .error (.invalidOperation (.keyLength key.length t.keyFields.length)))
    else
      let (keys, ids, row, _) := t.keys.intern t.table.rows key
      let (sheet, result) := t.writeNew row key writes
      let table := { t.table with rows := ids, sheet := sheet }
      match result with
      | .ok () =>
        ({ t with table := { table with batch := table.batch.add row }, keys := keys },
          .ok (row, true))
      | .error e =>
        ({ t with table := table.discard row, keys := keys.forget key }, .error e)

/-- Removes the row of a key. Gives the row, if the key was there. -/
def remove (t : KeyedTable) (key : Key) : KeyedTable × Except Error (Option RowId) :=
  match t.lookup key with
  | none => (t, .ok none)
  | some row =>
    let t := { t with keys := t.keys.forget key }
    match t.table.remove row with
    | .ok table => ({ t with table := table }, .ok (some row))
    | .error e => (t, .error e)

def size (t : KeyedTable) : Nat := t.keys.size

def isEmpty (t : KeyedTable) : Bool := t.keys.isEmpty

end KeyedTable

end TableFeed
