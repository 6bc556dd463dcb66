import TableFeed.DataType

/-!
Sets of field positions kept as bits in words of 64. Words are added as positions need them and
are dropped only when the set is cleared, so the same positions can stand in more or fewer words;
equality passes over the words at the end that have no bit set.
-/

namespace TableFeed

/-- One bit for each position. A position past the last word is not in the set. -/
structure FieldBits where
  words : List UInt64 := []

namespace FieldBits

instance : Inhabited FieldBits := ⟨{}⟩

def bit (i : Nat) : UInt64 := 1 <<< UInt64.ofNat i

def hasBit (w : UInt64) (i : Nat) : Bool := w &&& bit i != 0

/-- The words with zero words added until there are `n`. -/
def grow (words : List UInt64) (n : Nat) : List UInt64 :=
  words ++ List.replicate (n - words.length) 0

def contains (s : FieldBits) (id : FieldId) : Bool :=
  match s.words[id / 64]? with
  | some w => hasBit w (id % 64)
  | none => false

/-- Adds a position. Gives whether it is new. -/
def insert (s : FieldBits) (id : FieldId) : FieldBits × Bool :=
  let words := grow s.words (id / 64 + 1)
  (⟨words.modify (id / 64) (· ||| bit (id % 64))⟩, !hasBit (words.getD (id / 64) 0) (id % 64))

def ofList (ids : List FieldId) : FieldBits := ids.foldl (fun s id => (s.insert id).1) {}

/-- The positions below `count`. -/
def all (count : Nat) : FieldBits := ofList (List.range count)

/-- Adds the positions of `t`. -/
def union (s t : FieldBits) : FieldBits :=
  let words := grow s.words t.words.length
  ⟨List.zipWith (· ||| ·) words t.words ++ words.drop t.words.length⟩

def clear (_ : FieldBits) : FieldBits := {}

/-- How many bits of a word are set. -/
def ones (w : UInt64) : Nat := (List.range 64).countP (hasBit w)

def size (s : FieldBits) : Nat := s.words.foldl (fun n w => n + ones w) 0

def isEmpty (s : FieldBits) : Bool := s.words.all (· == 0)

/-- The positions of the bits that are set in the word at place `i`. -/
def positions (w : UInt64) (i : Nat) : List FieldId :=
  (List.range 64).filterMap fun j => if hasBit w j then some (i * 64 + j) else none

def toList (s : FieldBits) : List FieldId := s.words.zipIdx.flatMap fun (w, i) => positions w i

/-- The words up to the last one that has a bit set. -/
def significant (s : FieldBits) : List UInt64 := (s.words.reverse.dropWhile (· == 0)).reverse

instance : BEq FieldBits := ⟨fun s t => s.significant == t.significant⟩

end FieldBits

end TableFeed
