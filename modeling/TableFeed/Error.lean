import TableFeed.DataType
import TableFeed.Protocol
import TableFeed.Text.Hex

/-!
What can go wrong, by cause. Each cause has its wording in one place; `Error.message` is the text
that callers and clients see.
-/

namespace TableFeed

/-- A field as a caller names it: by position or by name. -/
inductive FieldRef
  | id (id : FieldId)
  | name (name : String)
  deriving DecidableEq, Repr

def FieldRef.label : FieldRef → String
  | id n => s!"#{n}"
  | name s => s

/-- Why a list of fields is not a schema, or not one a table can be keyed by. -/
inductive SchemaFault
  | emptyName
  | duplicateName (name : String)
  | noKeyField
  | unknownKeyField (name : String)
  | stated (text : String)
  deriving DecidableEq, Repr

def SchemaFault.text : SchemaFault → String
  | emptyName => "Field name cannot be empty"
  | duplicateName n => s!"Field already exists: {n}"
  | noKeyField => "At least one key field is required"
  | unknownKeyField n => s!"Key field not found: {n}"
  | stated s => s

/-- Why bytes cannot be split into frames. -/
inductive FrameFault
  | shorterThanHeader (size : Nat)
  | lengthMismatch (length size : Nat)
  | unknownKind (code : UInt8)
  | lengthOutside (length limit : Nat)
  | unsynchronized
  | stated (text : String)
  deriving DecidableEq, Repr

def FrameFault.text : FrameFault → String
  | shorterThanHeader n => s!"Frame of {n} bytes is shorter than its header"
  | lengthMismatch len n => s!"Frame length {len} does not match {n} bytes"
  | unknownKind c => s!"Unknown frame kind: {c}"
  | lengthOutside len max => s!"Frame length {len} outside 1..={max}"
  | unsynchronized => "Stream is no longer synchronized"
  | stated s => s

/-- Why a frame does not hold a message, or a message cannot be applied. -/
inductive MessageFault
  | truncated (need offset available : Nat)
  | invalidBool (byte : UInt8)
  | lengthExceeds (length remaining : Nat)
  | invalidText
  | trailing (count : Nat)
  | invalidMarker (byte : UInt8)
  | unknownResponse (code : UInt8)
  | unknownSections (bits : UInt8)
  | unknownType (code : UInt8)
  | shortOutOfRange (value : Int32)
  | invalidChar (value : UInt32)
  | sectionMissing (type : ResponseType)
  | noAcknowledgement
  | noSchema
  | noData
  | badSchema (fault : SchemaFault)
  | rowAboveLimit (row limit : RowId)
  | rowTwice (row : RowId)
  | removeWithValues
  | unknownField (id : UInt32)
  | fieldTwice (name : String)
  | valueCount (name : String) (values rows : Nat)
  | outOfRange (value : Int32) (type : DataType)
  | stated (text : String)
  deriving DecidableEq, Repr

def MessageFault.text : MessageFault → String
  | truncated n pos rem => s!"Truncated body: need {n} bytes at offset {pos}, have {rem}"
  | invalidBool b => s!"Invalid bool byte: {b}"
  | lengthExceeds n rem => s!"Length {n} exceeds remaining {rem} bytes"
  | invalidText => "Invalid UTF-8 string"
  | trailing n => s!"{n} trailing bytes"
  | invalidMarker b => s!"Invalid subscription marker: {b}"
  | unknownResponse c => s!"Unknown response type: {c}"
  | unknownSections b => "Unknown response sections: 0x" ++ Hex.encode [b]
  | unknownType c => s!"Unknown type id: {c}"
  | shortOutOfRange v => s!"Short attribute out of range: {v}"
  | invalidChar v => s!"Invalid char attribute: {v}"
  | sectionMissing .schema => "SCHEMA response without schema"
  | sectionMissing .message => "MESSAGE response without acknowledgement"
  | sectionMissing t => s!"{t.name} response without data"
  | noAcknowledgement => "MESSAGE without acknowledgement"
  | noSchema => "SCHEMA without schema section"
  | noData => "Row response without data section"
  | badSchema f => s!"Invalid schema: {f.text}"
  | rowAboveLimit row limit => s!"Row id {row} above limit {limit}"
  | rowTwice row => s!"Row {row} listed twice"
  | removeWithValues => "REM carries values"
  | unknownField id => s!"Unknown field id {id}"
  | fieldTwice n => s!"Field {n} sent twice"
  | valueCount n k m => s!"Field {n} has {k} values for {m} rows"
  | outOfRange v t => s!"{v} in {t.sectionName} out of range for {t.name}"
  | stated s => s

/-- How a subscription's responses came in the wrong order. -/
inductive OrderFault
  | outOfPhase (type : ResponseType) (phase : Phase)
  | notLive (type : ResponseType) (row : RowId)
  | alreadyLive (type : ResponseType) (row : RowId)
  | stated (text : String)
  deriving DecidableEq, Repr

def OrderFault.text : OrderFault → String
  | outOfPhase t p => s!"{t.name} received while {p.name}"
  | notLive t row => s!"{t.name} for row {row} which is not live"
  | alreadyLive t row => s!"{t.name} for row {row} which is already live"
  | stated s => s

/-- Why a call makes no sense in the state it was made in. -/
inductive OperationFault
  | keyFieldLocked (name : String)
  | keyLength (given expected : Nat)
  | noSchemaReceived
  | noSchemaAdopted
  | outsideSchema
  | overFrameLimit (type : ResponseType) (row : RowId) (length limit : Nat)
  | queueFull
  | serverStopped
  | stated (text : String)
  deriving DecidableEq, Repr

def OperationFault.text : OperationFault → String
  | keyFieldLocked n => s!"Key field {n} cannot be written"
  | keyLength g e => s!"Key has {g} values, table has {e} key fields"
  | noSchemaReceived => "No schema received"
  | noSchemaAdopted => "No schema adopted"
  | outsideSchema => "Projection outside schema"
  | overFrameLimit t row len max =>
    s!"{t.name} of row {row} needs {len} bytes, frame limit is {max}"
  | queueFull => "Server command queue is full"
  | serverStopped => "Server has stopped"
  | stated s => s

inductive Error
  | invalidRow (row : RowId)
  | typeMismatch (expected got : DataType)
  | fieldNotFound (field : FieldRef)
  | invalidSchema (fault : SchemaFault)
  | unknownSubscription (id : Int32)
  | malformedFrame (fault : FrameFault)
  | malformedMessage (fault : MessageFault)
  | protocolViolation (id : Int32) (fault : OrderFault)
  | invalidOperation (fault : OperationFault)
  deriving DecidableEq, Repr

namespace Error

def message : Error → String
  | invalidRow row => s!"Row {row} is not live"
  | typeMismatch e g => s!"Type mismatch: expected {e.name}, got {g.name}"
  | fieldNotFound f => s!"Field not found: {f.label}"
  | invalidSchema f => s!"Invalid schema: {f.text}"
  | unknownSubscription id => s!"Unknown subscription: {id}"
  | malformedFrame f => s!"Malformed frame: {f.text}"
  | malformedMessage f => s!"Malformed message: {f.text}"
  | protocolViolation id f => s!"Protocol violation on subscription {id}: {f.text}"
  | invalidOperation f => s!"Invalid operation: {f.text}"

/-- The name of the kind of error. -/
def kind : Error → String
  | invalidRow _ => "InvalidRow"
  | typeMismatch _ _ => "TypeMismatch"
  | fieldNotFound _ => "FieldNotFound"
  | invalidSchema _ => "InvalidSchema"
  | unknownSubscription _ => "UnknownSubscription"
  | malformedFrame _ => "MalformedFrame"
  | malformedMessage _ => "MalformedMessage"
  | protocolViolation _ _ => "ProtocolViolation"
  | invalidOperation _ => "InvalidOperation"

/-- Whether the connection cannot go on: frames can no longer be told apart. -/
def isFatal : Error → Bool
  | malformedFrame _ => true
  | _ => false

end Error

end TableFeed
