import TableFeed.Column
import TableFeed.Schema

/-!
A sheet is a schema with the storage of its fields. Writes into one row stop at the first one
that is refused; those before it stay.
-/

namespace TableFeed

abbrev FieldSet := AscSet FieldId

/-- A field description together with the field's values. -/
structure StoredField where
  info : FieldInfo
  column : Column info.type := {}

namespace StoredField

/-- Changes the values and keeps the description. -/
def map (g : (t : DataType) → Column t → Column t) (f : StoredField) : StoredField :=
  { f with column := g _ f.column }

def value (f : StoredField) (row : RowId) : Value := f.column.value row

@[simp] theorem info_map (g : (t : DataType) → Column t → Column t) (f : StoredField) :
    (f.map g).info = f.info := rfl

end StoredField

structure Sheet where
  name : String
  fields : List StoredField
  wellNamed : WellNamed (fields.map (·.info))

/-- One write of a row writer: the field it names and the value for it. -/
structure Write where
  field : FieldRef
  value : Value

namespace Sheet

def schema (s : Sheet) : Schema := ⟨⟨s.name, s.fields.map (·.info)⟩, s.wellNamed⟩

theorem infos_ofFields (fields : List FieldInfo) :
    (fields.map fun f => ({ info := f } : StoredField)).map (·.info) = fields := by
  simp [Function.comp_def]

/-- The sheet of a schema with nothing written. -/
def ofSchema (s : Schema) : Sheet :=
  ⟨s.name, s.fields.map fun f => { info := f }, by rw [infos_ofFields]; exact s.wellNamed⟩

instance : Inhabited Sheet := ⟨ofSchema default⟩

@[simp] theorem schema_ofSchema (s : Schema) : (ofSchema s).schema = s :=
  Schema.toLayout_injective (by simp [schema, ofSchema, Function.comp_def])

/-- Changes the values of every field. -/
def mapAll (s : Sheet) (g : (t : DataType) → Column t → Column t) : Sheet :=
  ⟨s.name, s.fields.map (·.map g), by simpa [Function.comp_def] using s.wellNamed⟩

theorem infos_modify (fields : List StoredField) (id : FieldId)
    (g : (t : DataType) → Column t → Column t) :
    (fields.modify id (·.map g)).map (·.info) = fields.map (·.info) := by
  induction fields generalizing id with
  | nil => simp
  | cons f fs ih => cases id <;> simp [ih]

/-- Changes the values of one field. -/
def mapField (s : Sheet) (id : FieldId) (g : (t : DataType) → Column t → Column t) : Sheet :=
  ⟨s.name, s.fields.modify id (·.map g), by rw [infos_modify]; exact s.wellNamed⟩

@[simp] theorem schema_mapAll (s : Sheet) (g : (t : DataType) → Column t → Column t) :
    (s.mapAll g).schema = s.schema :=
  Schema.toLayout_injective (by simp [schema, mapAll, Function.comp_def])

@[simp] theorem schema_mapField (s : Sheet) (id : FieldId)
    (g : (t : DataType) → Column t → Column t) : (s.mapField id g).schema = s.schema :=
  Schema.toLayout_injective (by simp only [schema, mapField, infos_modify])

def field? (s : Sheet) (id : FieldId) : Option StoredField := s.fields[id]?

def resetRow (s : Sheet) (row : RowId) : Sheet := s.mapAll fun _ c => c.reset row

def clear (s : Sheet) : Sheet := s.mapAll fun _ c => c.clear

/-- Writes one cell by field position. -/
def set (s : Sheet) (row : RowId) (id : FieldId) (v : Value) : Except Error Sheet :=
  match s.field? id with
  | none => .error (.fieldNotFound (.id id))
  | some f =>
    if v.type = f.info.type then .ok (s.mapField id fun _ c => c.write row v)
    else .error (.typeMismatch f.info.type v.type)

/-- The position that a reference stands for. A position is not looked up here. -/
def resolve (s : Sheet) : FieldRef → Except Error FieldId
  | .id id => .ok id
  | .name n => s.schema.require n

/-- Writes one cell of a row whose locked fields cannot be written. Gives the field written. -/
def put (s : Sheet) (locked : List FieldId) (row : RowId) (w : Write) :
    Except Error (Sheet × FieldId) := do
  let id ← s.resolve w.field
  match s.field? id with
  | none => throw (.fieldNotFound (.id id))
  | some f =>
    if locked.contains id then throw (.invalidOperation (.keyFieldLocked f.info.name))
    let s ← s.set row id w.value
    return (s, id)

/-- Runs a row writer. Gives the sheet after it, the fields written and whether it came to its
end. -/
def writeRow (locked : List FieldId) (row : RowId) :
    List Write → Sheet → FieldSet → Sheet × FieldSet × Except Error Unit
  | [], s, written => (s, written, .ok ())
  | w :: ws, s, written =>
    match s.put locked row w with
    | .error e => (s, written, .error e)
    | .ok (s, id) => writeRow locked row ws s (written.insert id)

/-- The value of a cell; `none` if there is no such field. -/
def value? (s : Sheet) (row : RowId) (id : FieldId) : Option Value :=
  (s.field? id).map (·.value row)

end Sheet

/-- The field with the values that `old` has in `rows`, if it has a field of the same name and
type. -/
def StoredField.carryFrom (old : Sheet) (rows : List RowId) (f : StoredField) : StoredField :=
  match (old.schema.fieldId? f.info.name).bind old.field? with
  | some g =>
    if g.info.type = f.info.type then
      f.map fun _ c => rows.foldl (fun c row => c.write row (g.value row)) c
    else f
  | none => f

@[simp] theorem StoredField.info_carryFrom (old : Sheet) (rows : List RowId) (f : StoredField) :
    (f.carryFrom old rows).info = f.info := by
  unfold carryFrom
  split
  · split <;> rfl
  · rfl

namespace Sheet

/-- Takes over the values of `rows` for the fields that `old` has with the same name and type. -/
def carryOver (s old : Sheet) (rows : List RowId) : Sheet :=
  ⟨s.name, s.fields.map (·.carryFrom old rows), by simpa [Function.comp_def] using s.wellNamed⟩

end Sheet

end TableFeed
