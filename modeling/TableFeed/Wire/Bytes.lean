import TableFeed.Error

/-!
Primitive items of a message: words with the lowest byte first, byte strings and lists behind a
count of four bytes. Reading takes items off the front of a cursor and fails with the place where
the bytes ran out.
-/

namespace TableFeed.Wire

open TableFeed

/-- The lowest `k` bytes of a number, lowest first. -/
def littleEndian : (k n : Nat) → Bytes
  | 0, _ => []
  | k + 1, n => UInt8.ofNat n :: littleEndian k (n / 256)

/-- The number whose bytes, lowest first, are given. -/
def ofLittleEndian : Bytes → Nat
  | [] => 0
  | b :: bs => b.toNat + 256 * ofLittleEndian bs

@[simp] theorem length_littleEndian (k n : Nat) : (littleEndian k n).length = k := by
  induction k generalizing n with
  | zero => rfl
  | succ k ih => simp [littleEndian, ih]

/-- Four bytes hold a number up to its remainder by 2³². -/
theorem ofLittleEndian_littleEndian_four (n : Nat) :
    ofLittleEndian (littleEndian 4 n) = n % 0x100000000 := by
  simp only [littleEndian, ofLittleEndian, UInt8.toNat_ofNat']
  omega

/-- Eight bytes hold a number up to its remainder by 2⁶⁴. -/
theorem ofLittleEndian_littleEndian_eight (n : Nat) :
    ofLittleEndian (littleEndian 8 n) = n % 0x10000000000000000 := by
  simp only [littleEndian, ofLittleEndian, UInt8.toNat_ofNat']
  omega

theorem littleEndian_ofLittleEndian (bs : Bytes) :
    littleEndian bs.length (ofLittleEndian bs) = bs := by
  induction bs with
  | nil => rfl
  | cons b bs ih =>
    have hb : b.toNat < 256 := b.toNat_lt
    have hdiv : (b.toNat + 256 * ofLittleEndian bs) / 256 = ofLittleEndian bs := by omega
    simp only [List.length_cons, littleEndian, ofLittleEndian, hdiv, ih]
    congr 1
    apply UInt8.toNat.inj
    simp

def putBool (b : Bool) : Bytes := [if b then 1 else 0]

def putInt8 (v : Int8) : Bytes := [v.toUInt8]

def putUInt32 (v : UInt32) : Bytes := littleEndian 4 v.toNat

def putUInt64 (v : UInt64) : Bytes := littleEndian 8 v.toNat

def putInt32 (v : Int32) : Bytes := putUInt32 v.toUInt32

def putInt64 (v : Int64) : Bytes := putUInt64 v.toUInt64

def putLength (n : Nat) : Bytes := littleEndian 4 n

def putBytes (bs : Bytes) : Bytes := putLength bs.length ++ bs

def putString (s : String) : Bytes := putBytes s.toUTF8.toList

/-- A count and then each item. -/
def putList {α : Type} (put : α → Bytes) (items : List α) : Bytes :=
  putLength items.length ++ items.flatMap put

/-- The bytes of a body that are still to be read. -/
structure Cursor where
  offset : Nat
  rest : Bytes

/-- Whether at least `n` bytes are left. It looks no further than it has to. -/
def Cursor.has (c : Cursor) (n : Nat) : Bool := n == 0 || !(c.rest.drop (n - 1)).isEmpty

theorem Cursor.has_iff {c : Cursor} {n : Nat} : c.has n = true ↔ n ≤ c.rest.length := by
  simp only [has, Bool.or_eq_true, beq_iff_eq, Bool.not_eq_true', List.isEmpty_eq_false_iff,
    ne_eq, List.drop_eq_nil_iff]
  omega

/-- Reads an item off a cursor. -/
abbrev Reader (α : Type) := StateT Cursor (Except MessageFault) α

namespace Reader

def take (n : Nat) : Reader Bytes := fun c =>
  if c.has n then .ok (c.rest.take n, ⟨c.offset + n, c.rest.drop n⟩)
  else .error (.truncated n c.offset c.rest.length)

/-- A number of `k` bytes. -/
def number (k : Nat) : Reader Nat := do return ofLittleEndian (← take k)

def uint8 : Reader UInt8 := do return UInt8.ofNat (← number 1)

def bool : Reader Bool := do
  match ← uint8 with
  | 0 => return false
  | 1 => return true
  | b => throw (.invalidBool b)

def int8 : Reader Int8 := do return (← uint8).toInt8

def uint32 : Reader UInt32 := do return UInt32.ofNat (← number 4)

def uint64 : Reader UInt64 := do return UInt64.ofNat (← number 8)

def int32 : Reader Int32 := do return (← uint32).toInt32

def int64 : Reader Int64 := do return (← uint64).toInt64

/-- A count of items of at least `least` bytes each. A count that cannot fit is refused. -/
def length (least : Nat) : Reader Nat := do
  let n ← number 4
  let c ← get
  if c.has (n * max least 1) then return n else throw (.lengthExceeds n c.rest.length)

def bytes : Reader Bytes := do take (← length 1)

def string : Reader String := do
  match String.fromUTF8? ⟨(← bytes).toArray⟩ with
  | some s => return s
  | none => throw .invalidText

/-- `n` items. -/
def replicate {α : Type} (item : Reader α) : Nat → Reader (List α)
  | 0 => return []
  | n + 1 => do
    let a ← item
    return a :: (← replicate item n)

/-- A count and then each item. -/
def list {α : Type} (least : Nat) (item : Reader α) : Reader (List α) := do
  replicate item (← length least)

/-- Reads a whole body; bytes left over are a fault. -/
def whole {α : Type} (r : Reader α) (body : Bytes) : Except MessageFault α := do
  let (a, c) ← r.run ⟨0, body⟩
  if c.rest.isEmpty then return a else throw (.trailing c.rest.length)

end Reader

end TableFeed.Wire
