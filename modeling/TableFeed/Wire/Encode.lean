import TableFeed.Wire.Bytes
import TableFeed.Wire.Message

/-!
Writing messages as frames. A frame is the length of what follows it, its kind and its body.
-/

namespace TableFeed.Wire

open TableFeed

def putValue (v : Value) : Bytes :=
  v.type.code :: match v with
  | ⟨.bool, b⟩ => putBool b
  | ⟨.byte, n⟩ => putInt8 n
  | ⟨.short, n⟩ => putInt32 n.toInt32
  | ⟨.char, c⟩ => putUInt32 c.val
  | ⟨.int32, n⟩ => putInt32 n
  | ⟨.int64, n⟩ => putInt64 n
  | ⟨.float32, w⟩ => putUInt32 w
  | ⟨.float64, w⟩ => putUInt64 w
  | ⟨.string, s⟩ => putString s
  | ⟨.generic, bs⟩ => putBytes bs

def putMetadata (m : Metadata) : Bytes :=
  putList putString m.tags.toList ++
    putList (fun a => putString a.1 ++ putValue a.2) m.attributes.toList

def putFieldInfo (f : FieldInfo) : Bytes :=
  putString f.name ++ f.type.code :: putMetadata f.metadata

def putLayout (l : Layout) : Bytes := putString l.name ++ putList putFieldInfo l.fields

def putColumn {α : Type} (put : α → Bytes) (c : WireColumn α) : Bytes :=
  putUInt32 c.field ++ putList put c.values

def putData (d : RowData) : Bytes :=
  putList putUInt32 d.rows ++ putList (putColumn putBool) d.bools ++
    putList (putColumn putInt8) d.bytes ++ putList (putColumn putInt32) d.int32s ++
    putList (putColumn putInt64) d.int64s ++ putList (putColumn putUInt32) d.floats ++
    putList (putColumn putUInt64) d.doubles ++ putList (putColumn putString) d.strings ++
    putList (putColumn putBytes) d.generics

def putAcknowledgement (a : Acknowledgement) : Bytes := putBool a.success ++ putString a.message

def putModification (m : Modification) : Bytes :=
  putString m.target ++ putString m.action ++ putList putBytes m.arguments

def putSelection (s : Selection) : Bytes :=
  putString s.output ++ putList putString s.fields ++ putBool s.all ++
    putList putModification s.modifications

def requestBody (r : Request) : Bytes :=
  putInt64 r.token ++ putInt32 r.subscription ++ r.type.code ::
    match r.selection with
    | none => [0]
    | some s => 1 :: putSelection s

/-- Which optional parts a response has: a bit each for schema, data and acknowledgement. -/
def sectionBits (r : Response) : UInt8 :=
  (if r.schema.isSome then 1 else 0) + (if r.data.isSome then 2 else 0) +
    (if r.acknowledgement.isSome then 4 else 0)

/-- A part that may be missing. -/
def putOption {α : Type} (put : α → Bytes) : Option α → Bytes
  | none => []
  | some a => put a

def responseBody (r : Response) : Bytes :=
  putInt32 r.subscription ++ putInt64 r.token ++ r.type.code :: sectionBits r ::
    (putOption putLayout r.schema ++ putOption putData r.data ++
      putOption putAcknowledgement r.acknowledgement)

/-- The frame of a body. -/
def enclose (kind : FrameKind) (body : Bytes) : Bytes :=
  putLength (body.length + 1) ++ kind.code :: body

def encodeRequest (r : Request) : Bytes := enclose .request (requestBody r)

def encodeResponse (r : Response) : Bytes := enclose .response (responseBody r)

end TableFeed.Wire
