import TableFeed.Sheet
import TableFeed.Wire.Size
import TableFeed.Wire.Stream

/-!
Responses for one subscription. The encoder chooses the fields that were asked for and numbers them
in the order asked. A batch that does not fit into one frame is halved until its parts do. Values
are read off the sheet of the adopted schema, which the caller hands in as it stands.
-/

namespace TableFeed

open Wire

structure Encoder where
  subscription : Int32
  /-- The fields asked for by name; `none` for every field. -/
  requested : Option (List String) := none
  limit : Nat := defaultFrameLimit
  /-- The fields of the adopted schema that are sent, in their order on the wire; `none` before a
  schema is adopted. -/
  projection : Option (List FieldId) := none
  deriving DecidableEq

namespace Encoder

def resolve (e : Encoder) (schema : Schema) : Except Error (List FieldId) :=
  match e.requested with
  | none => .ok (List.range schema.size)
  | some names => names.mapM schema.require

/-- Whether every field asked for is in the schema. -/
def validate (e : Encoder) (schema : Schema) : Except Error Unit :=
  (e.resolve schema).map fun _ => ()

/-- Adopts a schema and announces the fields that will be sent. -/
def adopt (e : Encoder) (schema : Schema) : Except Error (Encoder × Response) := do
  let ids ← e.resolve schema
  let layout : Layout := ⟨schema.name, ids.filterMap schema.field?⟩
  return ({ e with projection := some ids }, .ofSchema e.subscription layout)

/-- Forgets the adopted schema. -/
def reset (e : Encoder) : Encoder := { e with projection := none }

/-- The fields sent, each with its number on the wire. -/
def numbered (ids : List FieldId) : List (FieldId × Nat) := ids.zipIdx

/-- The rows with one column for each of the given fields. -/
def gather (sheet : Sheet) (rows : List RowId) (fields : List (FieldId × Nat)) :
    Except Error RowData :=
  fields.foldlM (fun data (id, number) =>
    match sheet.field? id with
    | none => .error (.invalidOperation .outsideSchema)
    | some f => .ok (data.push (UInt32.ofNat number) f.info.type (rows.map f.column.get)))
    { rows := rows }

/-- The type of the parts after the first. -/
def continuation : ResponseType → ResponseType
  | .init => .add
  | t => t

/-- Encodes rows as one response, or as the responses of their halves where that is too long. -/
def split (e : Encoder) (encode : List RowId → Except Error RowData) (type : ResponseType)
    (rows : List RowId) : Except Error (List Response) :=
  match encode rows with
  | .error err => .error err
  | .ok data =>
    let response := Response.ofData e.subscription type data
    if responseLength response ≤ e.limit then .ok [response]
    else if _h : rows.length < 2 then
      .error (.invalidOperation
        (.overFrameLimit type (rows.head?.getD 0) (responseLength response) e.limit))
    else do
      let head ← e.split encode type (rows.take (rows.length / 2))
      let tail ← e.split encode (continuation type) (rows.drop (rows.length / 2))
      return head ++ tail
termination_by rows.length
decreasing_by
  · simp only [List.length_take]
    omega
  · simp only [List.length_drop]
    omega

/-- Encodes rows with every field sent, as `init` or `add`. -/
def encodeRows (e : Encoder) (sheet : Sheet) (type : ResponseType) (rows : List RowId) :
    Except Error (List Response) :=
  match e.projection with
  | none => .error (.invalidOperation .noSchemaAdopted)
  | some ids => e.split (fun rows => gather sheet rows (numbered ids)) type rows

/-- Encodes changes with the fields sent that are among the changed ones. There is nothing to send
if none is. -/
def encodeChange (e : Encoder) (sheet : Sheet) (rows : List RowId) (changed : FieldSet) :
    Except Error (List Response) :=
  match e.projection with
  | none => .ok []
  | some ids =>
    let fields := (numbered ids).filter fun f => changed.contains f.1
    if fields.isEmpty then .ok []
    else e.split (fun rows => gather sheet rows fields) .change rows

/-- Encodes removals, which carry no values. -/
def encodeRemove (e : Encoder) (rows : List RowId) : Except Error (List Response) :=
  e.split (fun rows => .ok { rows := rows }) .remove rows

end Encoder

end TableFeed
