import TableFeed.Ordered.Set
import TableFeed.Schema

/-!
The messages between the two ends of a subscription: requests for a selection of an output, and
responses with a schema, with columns of values, or with an acknowledgement.
-/

namespace TableFeed

/-- A change to a subscription, whose meaning is up to the output. -/
structure Modification where
  target : String
  action : String
  arguments : List Bytes := []
  deriving DecidableEq

/-- What a subscription asks for: some or all fields of an output, under modifications. -/
structure Selection where
  output : String
  fields : List String := []
  all : Bool := false
  modifications : List Modification := []
  deriving DecidableEq

namespace Selection

def everything (output : String) : Selection := { output := output, all := true }

/-- Asks for the given fields only; for every field if there are none. -/
def only (s : Selection) (fields : List String) : Selection :=
  { s with fields := fields, all := fields.isEmpty }

def modified (s : Selection) (m : Modification) : Selection :=
  { s with modifications := s.modifications ++ [m] }

def wantsAll (s : Selection) : Bool := s.all || s.fields.isEmpty

/-- The fields asked for; `none` for every field. -/
def projection (s : Selection) : Option (List String) := if s.wantsAll then none else some s.fields

end Selection

structure Request where
  token : Int64
  subscription : Int32
  type : RequestType
  selection : Option Selection := none
  deriving DecidableEq

/-- The values of one field, one for each row of the message. -/
structure WireColumn (α : Type) where
  field : UInt32
  values : List α
  deriving DecidableEq

/-- Rows and columns of their values. Short and char fields travel among the 32 bit integers. -/
structure RowData where
  rows : List RowId
  bools : List (WireColumn Bool) := []
  bytes : List (WireColumn Int8) := []
  int32s : List (WireColumn Int32) := []
  int64s : List (WireColumn Int64) := []
  floats : List (WireColumn UInt32) := []
  doubles : List (WireColumn UInt64) := []
  strings : List (WireColumn String) := []
  generics : List (WireColumn Bytes) := []
  deriving DecidableEq

namespace RowData

def columnCount (d : RowData) : Nat :=
  d.bools.length + d.bytes.length + d.int32s.length + d.int64s.length + d.floats.length +
    d.doubles.length + d.strings.length + d.generics.length

/-- Adds a column for field `id` with values of type `t`, widened where they travel widened. -/
def push (d : RowData) (id : UInt32) : (t : DataType) → List t.Carrier → RowData
  | .bool, vs => { d with bools := d.bools ++ [⟨id, vs⟩] }
  | .byte, vs => { d with bytes := d.bytes ++ [⟨id, vs⟩] }
  | .short, vs => { d with int32s := d.int32s ++ [⟨id, vs.map Int16.toInt32⟩] }
  | .char, vs => { d with int32s := d.int32s ++ [⟨id, vs.map fun c => c.val.toInt32⟩] }
  | .int32, vs => { d with int32s := d.int32s ++ [⟨id, vs⟩] }
  | .int64, vs => { d with int64s := d.int64s ++ [⟨id, vs⟩] }
  | .float32, vs => { d with floats := d.floats ++ [⟨id, vs⟩] }
  | .float64, vs => { d with doubles := d.doubles ++ [⟨id, vs⟩] }
  | .string, vs => { d with strings := d.strings ++ [⟨id, vs⟩] }
  | .generic, vs => { d with generics := d.generics ++ [⟨id, vs⟩] }

end RowData

structure Acknowledgement where
  success : Bool := false
  message : String := ""
  deriving DecidableEq

structure Response where
  subscription : Int32
  /-- The token of the request that is answered; zero for what is sent unasked. -/
  token : Int64 := 0
  type : ResponseType
  schema : Option Layout := none
  data : Option RowData := none
  acknowledgement : Option Acknowledgement := none
  deriving DecidableEq

namespace Response

def message (subscription : Int32) (token : Int64) (success : Bool) (text : String) : Response :=
  { subscription := subscription, token := token, type := .message,
    acknowledgement := some ⟨success, text⟩ }

def ofSchema (subscription : Int32) (layout : Layout) : Response :=
  { subscription := subscription, type := .schema, schema := some layout }

def ofData (subscription : Int32) (type : ResponseType) (data : RowData) : Response :=
  { subscription := subscription, type := type, data := some data }

end Response

inductive Frame
  | request (r : Request)
  | response (r : Response)
  deriving DecidableEq

end TableFeed
