import TableFeed.Table
import TableFeed.Wire.Message

/-!
The receiving end of a subscription: a table rebuilt from responses, which is an output in turn. A
response is checked as a whole before anything is written. Responses out of order are a violation,
after which data is ignored until the next schema.
-/

namespace TableFeed

/-- The highest row id accepted unless another limit is set. -/
def defaultRowLimit : RowId := 0xffffff

structure Replica where
  subscription : Int32
  phase : Phase := .awaitingSchema
  sheet : Option Sheet := none
  rows : RowIds := {}
  publisher : Publisher := {}
  rowLimit : RowId := defaultRowLimit
  /-- How often it has started over. -/
  restarts : Nat := 0

namespace Replica

instance : Inhabited Replica := ⟨{ subscription := 0 }⟩

def schema (r : Replica) : Option Schema := r.sheet.map Sheet.schema

def isLive (r : Replica) (row : RowId) : Bool := r.rows.isLive row

def liveRows (r : Replica) : List RowId := r.rows.liveRows

/-- Reads a cell by field name. A row that is not live reads as absent. -/
def get (r : Replica) (row : RowId) (name : String) : Except Error Value :=
  match r.sheet with
  | none => .error (.invalidOperation .noSchemaReceived)
  | some sheet =>
    match (sheet.schema.fieldId? name).bind sheet.field? with
    | none => .error (.fieldNotFound (.name name))
    | some f => .ok (if r.isLive row then f.value row else .absent f.info.type)

/-- Publishes a batch together with the schema handed in before, if one was. -/
def publish (r : Replica) (batch : Batch) : Replica × List Notice :=
  let (publisher, notices) := r.publisher.publish r.rows.live batch
  ({ r with publisher := publisher }, notices)

/-- Starts over with a sheet, or with none, and without rows. -/
def restart (r : Replica) (phase : Phase) (sheet : Option Sheet) : Replica × List Notice :=
  publish { r with phase := phase, sheet := sheet, rows := {}, restarts := r.restarts + 1,
                   publisher := r.publisher.update (sheet.map Sheet.schema) } {}

/-- A hold on the sheet that a replica had at some time. -/
structure Hold where
  restarts : Nat
  schema : Schema

/-- Takes hold of the sheet, if there is one. -/
def hold? (r : Replica) : Option Hold := r.sheet.map fun s => ⟨r.restarts, s.schema⟩

/-- What a hold reads now: the sheet as it stands, or a cleared one if the replica has started over
since. -/
def held (r : Replica) (h : Hold) : Sheet :=
  if h.restarts = r.restarts then r.sheet.getD (.ofSchema h.schema) else .ofSchema h.schema

/-- Forgets the schema and every row. -/
def reset (r : Replica) : Replica × List Notice := r.restart .awaitingSchema none

/-- Brings a value that was sent to the type of its field. -/
def fit (t : DataType) (v : Value) : Except Error Value :=
  match t, v with
  | .short, ⟨.int32, n⟩ =>
    if n.toInt16.toInt32 = n then .ok ⟨.short, n.toInt16⟩
    else .error (.malformedMessage (.outOfRange n .short))
  | .char, ⟨.int32, n⟩ =>
    if h : n.toUInt32.isValidChar then .ok ⟨.char, ⟨n.toUInt32, h⟩⟩
    else .error (.malformedMessage (.outOfRange n .char))
  | t, v => if v.type = t then .ok v else .error (.typeMismatch t v.type)

/-- The values for one field, by row of the message. -/
structure ColumnWrite where
  field : FieldId
  values : List Value

/-- What columns of one type write. A field may be sent once in all, with a value for each row. -/
def planColumns (sheet : Sheet) (rowCount : Nat) (t : DataType) :
    List (WireColumn t.Carrier) → FieldSet → Except Error (List ColumnWrite × FieldSet)
  | [], seen => .ok ([], seen)
  | c :: cs, seen => do
    let id := c.field.toNat
    let some f := sheet.field? id | throw (.malformedMessage (.unknownField c.field))
    if seen.contains id then throw (.malformedMessage (.fieldTwice f.info.name))
    if c.values.length ≠ rowCount then
      throw (.malformedMessage (.valueCount f.info.name c.values.length rowCount))
    let values ← c.values.mapM fun a => fit f.info.type ⟨t, a⟩
    let (plan, seen) ← planColumns sheet rowCount t cs (seen.insert id)
    return (⟨id, values⟩ :: plan, seen)

/-- What all columns of a message write. -/
def plan (sheet : Sheet) (d : RowData) : Except Error (List ColumnWrite) := do
  let n := d.rows.length
  let (bools, seen) ← planColumns sheet n .bool d.bools ∅
  let (bytes, seen) ← planColumns sheet n .byte d.bytes seen
  let (int32s, seen) ← planColumns sheet n .int32 d.int32s seen
  let (int64s, seen) ← planColumns sheet n .int64 d.int64s seen
  let (floats, seen) ← planColumns sheet n .float32 d.floats seen
  let (doubles, seen) ← planColumns sheet n .float64 d.doubles seen
  let (strings, seen) ← planColumns sheet n .string d.strings seen
  let (generics, _) ← planColumns sheet n .generic d.generics seen
  return bools ++ bytes ++ int32s ++ int64s ++ floats ++ doubles ++ strings ++ generics

/-- The first row that is above the limit or listed a second time. -/
def checkRows (limit : RowId) : List RowId → RowSet → Except Error Unit
  | [], _ => .ok ()
  | row :: rows, seen =>
    if limit < row then .error (.malformedMessage (.rowAboveLimit row limit))
    else if seen.contains row then .error (.malformedMessage (.rowTwice row))
    else checkRows limit rows (seen.insert row)

/-- Checks the shape of a row message. Gives what it writes. -/
def checkShape (r : Replica) (type : ResponseType) (sheet : Sheet) (d : RowData) :
    Except Error (List ColumnWrite) := do
  checkRows r.rowLimit d.rows ∅
  if type = .remove then
    if d.columnCount ≠ 0 then throw (.malformedMessage .removeWithValues)
    return []
  else plan sheet d

/-- Whether rows of this type of message have to be live already. -/
def needsLive : ResponseType → Bool
  | .change | .remove => true
  | _ => false

/-- The first row whose liveness does not go with the type of the message. -/
def conflict (r : Replica) (type : ResponseType) (rows : List RowId) : Option OrderFault :=
  (rows.find? fun row => r.isLive row != needsLive type).map fun row =>
    if needsLive type then .notLive type row else .alreadyLive type row

/-- Adds or removes the rows of a message one by one, up to one that cannot be. -/
def applyRows (type : ResponseType) :
    List RowId → Replica → Sheet → Batch → Replica × Sheet × Except Error Batch
  | [], r, sheet, batch => (r, sheet, .ok batch)
  | row :: rows, r, sheet, batch =>
    match type with
    | .remove =>
      match r.rows.release row with
      | .error e => (r, sheet, .error e)
      | .ok ids => applyRows type rows { r with rows := ids } sheet (batch.remove row)
    | .init | .add =>
      match r.rows.claim row with
      | .error e => (r, sheet, .error e)
      | .ok (ids, _) =>
        applyRows type rows { r with rows := ids } (sheet.resetRow row) (batch.add row)
    | _ => applyRows type rows r sheet batch

/-- Writes the columns of a message. -/
def applyColumns (rows : List RowId) (writes : List ColumnWrite) (sheet : Sheet) : Sheet :=
  writes.foldl (fun sheet w =>
    sheet.mapField w.field fun _ c =>
      (rows.zip w.values).foldl (fun c cell => c.write cell.1 cell.2) c) sheet

/-- Applies a checked row message. Gives the batch of it, which has not been published. -/
def apply (r : Replica) (type : ResponseType) (sheet : Sheet) (rows : List RowId)
    (writes : List ColumnWrite) : Replica × Except Error Batch :=
  let (r, sheet, result) := applyRows type rows r sheet {}
  match result with
  | .error e => ({ r with sheet := some sheet }, .error e)
  | .ok batch =>
    let fields : FieldSet := .ofList (writes.map (·.field))
    let batch := if type = .change then
        rows.foldl (fun b row => b.changeFields row fields) batch
      else batch
    ({ r with sheet := some (applyColumns rows writes sheet) }, .ok batch)

/-- The phase a row message is for. -/
def phaseFor : ResponseType → Phase
  | .init => .awaitingInit
  | _ => .live

/-- Gives the subscription up over responses out of order. -/
def violate (r : Replica) (fault : OrderFault) : Replica × List Notice × Except Error Unit :=
  ({ r with phase := .failed }, [], .error (.protocolViolation r.subscription fault))

def refuse (r : Replica) (e : Error) : Replica × List Notice × Except Error Unit :=
  (r, [], .error e)

/-- Accepts the rows of a message whose phase is right. -/
def acceptRows (r : Replica) (type : ResponseType) (sheet : Sheet) (d : RowData) :
    Replica × List Notice × Except Error Unit :=
  match r.checkShape type sheet d with
  | .error e => r.refuse e
  | .ok writes =>
    match r.conflict type d.rows with
    | some fault => r.violate fault
    | none =>
      let (r, result) := r.apply type sheet d.rows writes
      match result with
      | .error e => r.refuse e
      | .ok batch =>
        let (r, notices) := ({ r with phase := .live }).publish batch
        (r, notices, .ok ())

/-- Accepts a row message. -/
def acceptData (r : Replica) (type : ResponseType) (data : Option RowData) :
    Replica × List Notice × Except Error Unit :=
  if r.phase = .failed then (r, [], .ok ())
  else if r.phase ≠ phaseFor type then r.violate (.outOfPhase type r.phase)
  else
    match data, r.sheet with
    | none, _ => r.refuse (.malformedMessage .noData)
    | some _, none => r.refuse (.invalidOperation .noSchemaReceived)
    | some d, some sheet => r.acceptRows type sheet d

/-- Accepts a schema: the rows and values so far are gone. -/
def acceptSchema (r : Replica) (layout : Option Layout) :
    Replica × List Notice × Except Error Unit :=
  match layout with
  | none => r.refuse (.malformedMessage .noSchema)
  | some layout =>
    match layout.toSchema with
    | .error fault => r.refuse (.malformedMessage (.badSchema fault))
    | .ok schema =>
      let (r, notices) := r.restart .awaitingInit (some (.ofSchema schema))
      (r, notices, .ok ())

/-- Accepts one response. Gives what the inputs of the replica are told. -/
def accept (r : Replica) (response : Response) : Replica × List Notice × Except Error Unit :=
  if response.subscription ≠ r.subscription then
    r.refuse (.unknownSubscription response.subscription)
  else
    match response.type with
    | .message =>
      match response.acknowledgement with
      | none => r.refuse (.malformedMessage .noAcknowledgement)
      | some ack => (if ack.success then r else { r with phase := .failed }, [], .ok ())
    | .schema => r.acceptSchema response.schema
    | type => r.acceptData type response.data

end Replica

end TableFeed
