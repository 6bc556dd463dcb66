import TableFeed.DataType

/-!
Bytes and numbers as hexadecimal digits. Digits are written in lower case and read in either.
-/

namespace TableFeed.Hex

open TableFeed

def digit? (c : Char) : Option Nat :=
  if '0' ≤ c ∧ c ≤ '9' then some (c.toNat - '0'.toNat)
  else if 'a' ≤ c ∧ c ≤ 'f' then some (c.toNat - 'a'.toNat + 10)
  else if 'A' ≤ c ∧ c ≤ 'F' then some (c.toNat - 'A'.toNat + 10)
  else none

/-- A byte as two digits. -/
def ofByte (b : UInt8) : List Char := [Nat.digitChar (b.toNat / 16), Nat.digitChar (b.toNat % 16)]

def encode (bs : Bytes) : String := String.ofList (bs.flatMap ofByte)

def decodeChars : List Char → Option Bytes
  | [] => some []
  | [_] => none
  | a :: b :: rest => do
    let high ← digit? a
    let low ← digit? b
    return UInt8.ofNat (high * 16 + low) :: (← decodeChars rest)

/-- The bytes written by pairs of digits. -/
def decode? (s : String) : Option Bytes := decodeChars s.toList

/-- The number written by digits, highest first. -/
def number? (s : String) : Option Nat :=
  s.toList.foldlM (fun n c => (digit? c).map fun d => n * 16 + d) 0

end TableFeed.Hex
