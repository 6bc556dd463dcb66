/-!
The ten types a field can have, their numbers on the wire, and the values each of them holds.
Floating point values are their bit patterns, so they are compared, stored and sent bit for bit.
-/

namespace TableFeed

/-- A row of a table. Numbers are used again after a row is removed. -/
abbrev RowId := UInt32

/-- The position of a field within its schema. -/
abbrev FieldId := Nat

abbrev Bytes := List UInt8

inductive DataType
  | bool | byte | short | char | int32 | int64 | float32 | float64 | string | generic
  deriving DecidableEq, Repr, Inhabited

namespace DataType

def code : DataType → UInt8
  | bool => 1
  | byte => 2
  | short => 3
  | char => 4
  | int32 => 5
  | int64 => 6
  | float32 => 7
  | float64 => 8
  | string => 9
  | generic => 10

def ofCode? : UInt8 → Option DataType
  | 1 => some bool
  | 2 => some byte
  | 3 => some short
  | 4 => some char
  | 5 => some int32
  | 6 => some int64
  | 7 => some float32
  | 8 => some float64
  | 9 => some string
  | 10 => some generic
  | _ => none

def name : DataType → String
  | bool => "Bool"
  | byte => "Byte"
  | short => "Short"
  | char => "Char"
  | int32 => "Int32"
  | int64 => "Int64"
  | float32 => "Float32"
  | float64 => "Float64"
  | string => "String"
  | generic => "Generic"

def all : List DataType :=
  [bool, byte, short, char, int32, int64, float32, float64, string, generic]

def ofName? (n : String) : Option DataType := all.find? fun t => t.name == n

def isFixedWidth : DataType → Bool
  | string | generic => false
  | _ => true

/-- The values of a type. -/
@[reducible] def Carrier : DataType → Type
  | bool => Bool
  | byte => Int8
  | short => Int16
  | char => Char
  | int32 => Int32
  | int64 => Int64
  | float32 => UInt32
  | float64 => UInt64
  | string => String
  | generic => Bytes

/-- What a row reads where nothing was written. -/
def absent : (t : DataType) → t.Carrier
  | bool => false
  | byte => 0
  | short => 0
  | char => Char.ofNat 0
  | int32 => 0
  | int64 => 0
  | float32 => 0
  | float64 => 0
  | string => ""
  | generic => []

instance decEqCarrier : (t : DataType) → DecidableEq t.Carrier
  | bool => inferInstanceAs (DecidableEq Bool)
  | byte => inferInstanceAs (DecidableEq Int8)
  | short => inferInstanceAs (DecidableEq Int16)
  | char => inferInstanceAs (DecidableEq Char)
  | int32 => inferInstanceAs (DecidableEq Int32)
  | int64 => inferInstanceAs (DecidableEq Int64)
  | float32 => inferInstanceAs (DecidableEq UInt32)
  | float64 => inferInstanceAs (DecidableEq UInt64)
  | string => inferInstanceAs (DecidableEq String)
  | generic => inferInstanceAs (DecidableEq Bytes)

theorem ofCode?_code (t : DataType) : ofCode? t.code = some t := by cases t <;> rfl

/-- The type whose column section carries values of `t`: short and char values travel widened. -/
def carriedAs : DataType → DataType
  | short | char => int32
  | t => t

/-- The name of that column section. -/
def sectionName (t : DataType) : String :=
  match t.carriedAs with
  | bool => "bool_data"
  | byte => "byte_data"
  | int64 => "int64_data"
  | float32 => "float_data"
  | float64 => "double_data"
  | string => "string_data"
  | generic => "generic_data"
  | _ => "int32_data"

end DataType

end TableFeed
