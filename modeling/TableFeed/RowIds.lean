import TableFeed.Batch

/-!
Allocation of row ids. The store alone knows which ids are live. Freed ids are handed out again,
the one freed last first; retired ids wait until they are recycled.
-/

namespace TableFeed

structure RowIds where
  /-- The lowest id never handed out or passed over. -/
  next : RowId := 0
  /-- Ids to hand out again, the next one first. -/
  free : List RowId := []
  /-- Ids removed in the current cycle, in the order of their removal. -/
  retired : List RowId := []
  live : RowSet := ∅
  deriving DecidableEq

namespace RowIds

instance : Inhabited RowIds := ⟨{}⟩

def isLive (s : RowIds) (row : RowId) : Bool := s.live.contains row

def allocate (s : RowIds) : RowIds × RowId :=
  match s.free with
  | row :: rest => ({ s with free := rest, live := s.live.insert row }, row)
  | [] => ({ s with next := s.next + 1, live := s.live.insert s.next }, s.next)

/-- Makes a live id free for use at once. -/
def release (s : RowIds) (row : RowId) : Except Error RowIds :=
  if s.isLive row then .ok { s with free := row :: s.free, live := s.live.erase row }
  else .error (.invalidRow row)

/-- Makes a live id dead and keeps it out of use until the next `recycle`. -/
def retire (s : RowIds) (row : RowId) : Except Error RowIds :=
  if s.isLive row then .ok { s with retired := s.retired ++ [row], live := s.live.erase row }
  else .error (.invalidRow row)

/-- Frees the retired ids; the one retired last is used first. -/
def recycle (s : RowIds) : RowIds := { s with free := s.retired.reverse ++ s.free, retired := [] }

/-- The ids from `low` up to `high`, which is not one of them. -/
def span (low high : RowId) : List RowId :=
  (List.range' low.toNat (high.toNat - low.toNat)).map UInt32.ofNat

/-- Makes a given id live, as for rows numbered elsewhere. Ids passed over become free, the lowest
of them used first. Gives whether the id was not live before; the highest id of all cannot be
claimed, as nothing could follow it. -/
def claim (s : RowIds) (row : RowId) : Except Error (RowIds × Bool) :=
  if s.isLive row then .ok (s, false)
  else if s.next ≤ row then
    if row = 0xffffffff then .error (.invalidRow row)
    else .ok ({ s with next := row + 1, free := span s.next row ++ s.free,
                       live := s.live.insert row }, true)
  else if row ∈ s.free then
    .ok ({ s with free := s.free.erase row, live := s.live.insert row }, true)
  else
    .ok ({ s with retired := s.retired.erase row, live := s.live.insert row }, true)

/-- The live ids, lowest first. -/
def liveRows (s : RowIds) : List RowId := s.live.toList

def size (s : RowIds) : Nat := s.live.size

def isEmpty (s : RowIds) : Bool := s.live.isEmpty

def clear (_ : RowIds) : RowIds := {}

end RowIds

end TableFeed
