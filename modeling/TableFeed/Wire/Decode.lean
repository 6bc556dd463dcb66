import TableFeed.Wire.Bytes
import TableFeed.Wire.Message

/-!
Reading messages from frames. A frame whose bounds or kind are wrong is a fault of the stream; a
body that does not hold a message is a fault of that message alone.
-/

namespace TableFeed.Wire

open TableFeed

namespace Reader

def dataType : Reader DataType := do
  let code ← uint8
  match DataType.ofCode? code with
  | some t => return t
  | none => throw (.unknownType code)

/-- A value of type `t`; short and char values are read widened and have to fit. -/
def payload : (t : DataType) → Reader t.Carrier
  | .bool => bool
  | .byte => int8
  | .short => do
    let v ← int32
    if v.toInt16.toInt32 = v then return v.toInt16 else throw (.shortOutOfRange v)
  | .char => do
    let v ← uint32
    if h : v.isValidChar then return ⟨v, h⟩ else throw (.invalidChar v)
  | .int32 => int32
  | .int64 => int64
  | .float32 => uint32
  | .float64 => uint64
  | .string => string
  | .generic => bytes

def value : Reader Value := do
  let t ← dataType
  return ⟨t, ← payload t⟩

def attributeEntry : Reader (String × Value) := do
  let name ← string
  return (name, ← value)

/-- Tags and attributes may come in any order and more than once; the last attribute counts. -/
def metadata : Reader Metadata := do
  let tags ← list 4 string
  let attributes ← list 6 attributeEntry
  return { tags := .ofList tags, attributes := .ofList attributes }

def fieldInfo : Reader FieldInfo := do
  let name ← string
  let type ← dataType
  return { name := name, type := type, metadata := ← metadata }

def layout : Reader Layout := do
  let name ← string
  return { name := name, fields := ← list 13 fieldInfo }

def column {α : Type} (least : Nat) (item : Reader α) : Reader (WireColumn α) := do
  let field ← uint32
  return { field := field, values := ← list least item }

def columns {α : Type} (least : Nat) (item : Reader α) : Reader (List (WireColumn α)) :=
  list 8 (column least item)

def rowData : Reader RowData := do
  let rows ← list 4 uint32
  let bools ← columns 1 bool
  let bytes ← columns 1 int8
  let int32s ← columns 4 int32
  let int64s ← columns 8 int64
  let floats ← columns 4 uint32
  let doubles ← columns 8 uint64
  let strings ← columns 4 string
  let generics ← columns 4 Reader.bytes
  return { rows, bools, bytes, int32s, int64s, floats, doubles, strings, generics }

def acknowledgement : Reader Acknowledgement := do
  let success ← bool
  return { success := success, message := ← string }

def modification : Reader Modification := do
  let target ← string
  let action ← string
  return { target := target, action := action, arguments := ← list 4 bytes }

def selection : Reader Selection := do
  let output ← string
  let fields ← list 4 string
  let all ← bool
  return { output := output, fields := fields, all := all,
           modifications := ← list 12 modification }

def request : Reader Request := do
  let token ← int64
  let subscription ← int32
  let type ← RequestType.ofCode <$> uint8
  match ← uint8 with
  | 0 => return { token := token, subscription := subscription, type := type }
  | 1 => return { token := token, subscription := subscription, type := type,
                  selection := some (← selection) }
  | b => throw (.invalidMarker b)

/-- A part of a response that is there if its bit is set. -/
def sectionIf {α : Type} (there : Bool) (r : Reader α) : Reader (Option α) :=
  if there then some <$> r else return none

def response : Reader Response := do
  let subscription ← int32
  let token ← int64
  let code ← uint8
  let some type := ResponseType.ofCode? code | throw (.unknownResponse code)
  let bits ← uint8
  if bits > 7 then throw (.unknownSections bits)
  let schema ← sectionIf (bits &&& 1 != 0) layout
  let data ← sectionIf (bits &&& 2 != 0) rowData
  let ack ← sectionIf (bits &&& 4 != 0) acknowledgement
  let complete := match type with
    | .schema => schema.isSome
    | .message => ack.isSome
    | _ => data.isSome
  if !complete then throw (.sectionMissing type)
  return { subscription := subscription, token := token, type := type, schema := schema,
           data := data, acknowledgement := ack }

end Reader

/-- The message in the body of a frame. -/
def decodeBody : FrameKind → Bytes → Except Error Frame
  | .request, body => ((Reader.request.whole body).map .request).mapError .malformedMessage
  | .response, body => ((Reader.response.whole body).map .response).mapError .malformedMessage

/-- The message in one whole frame. -/
def decodeFrame (frame : Bytes) : Except Error Frame :=
  match frame with
  | a :: b :: c :: d :: code :: body =>
    let length := ofLittleEndian [a, b, c, d]
    if length ≠ body.length + 1 then
      .error (.malformedFrame (.lengthMismatch length (body.length + 1)))
    else
      match FrameKind.ofCode? code with
      | none => .error (.malformedFrame (.unknownKind code))
      | some kind => decodeBody kind body
  | _ => .error (.malformedFrame (.shorterThanHeader frame.length))

end TableFeed.Wire
