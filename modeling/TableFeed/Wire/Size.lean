import TableFeed.Wire.Message

/-!
The length of a response's frame, told from the message without writing it.
-/

namespace TableFeed.Wire

open TableFeed

def bytesSize (bs : Bytes) : Nat := 4 + bs.length

def stringSize (s : String) : Nat := 4 + s.utf8ByteSize

/-- The size of a counted list whose items have the given sizes. -/
def listSize {α : Type} (size : α → Nat) (items : List α) : Nat :=
  4 + items.foldr (fun a n => size a + n) 0

def valueSize (v : Value) : Nat :=
  1 + match v with
  | ⟨.bool, _⟩ | ⟨.byte, _⟩ => 1
  | ⟨.short, _⟩ | ⟨.char, _⟩ | ⟨.int32, _⟩ | ⟨.float32, _⟩ => 4
  | ⟨.int64, _⟩ | ⟨.float64, _⟩ => 8
  | ⟨.string, s⟩ => stringSize s
  | ⟨.generic, bs⟩ => bytesSize bs

def metadataSize (m : Metadata) : Nat :=
  listSize stringSize m.tags.toList +
    listSize (fun a => stringSize a.1 + valueSize a.2) m.attributes.toList

def fieldInfoSize (f : FieldInfo) : Nat := stringSize f.name + 1 + metadataSize f.metadata

def layoutSize (l : Layout) : Nat := stringSize l.name + listSize fieldInfoSize l.fields

def columnsSize {α : Type} (size : α → Nat) (cols : List (WireColumn α)) : Nat :=
  listSize (fun c => 4 + listSize size c.values) cols

def dataSize (d : RowData) : Nat :=
  listSize (fun _ => 4) d.rows + columnsSize (fun _ => 1) d.bools +
    columnsSize (fun _ => 1) d.bytes + columnsSize (fun _ => 4) d.int32s +
    columnsSize (fun _ => 8) d.int64s + columnsSize (fun _ => 4) d.floats +
    columnsSize (fun _ => 8) d.doubles + columnsSize stringSize d.strings +
    columnsSize bytesSize d.generics

/-- The length in the header of a response's frame, which counts the kind and the body. -/
def responseLength (r : Response) : Nat :=
  15 + (r.schema.map layoutSize).getD 0 + (r.data.map dataSize).getD 0 +
    (r.acknowledgement.map fun a => 1 + stringSize a.message).getD 0

end TableFeed.Wire
