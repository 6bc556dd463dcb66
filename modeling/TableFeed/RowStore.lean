import TableFeed.Field
import TableFeed.RowIds

/-!
Row ids as a store keeps them: a mark for every id up to the highest one that was ever live, and
beside the marks the number of those that are set. The number is counted up and down with the calls;
nothing compares it with the marks.
-/

namespace TableFeed

/-- Which ids are live. An id past the last mark is not. -/
structure LiveMarks where
  marks : Slots .bool := {}
  count : Nat := 0
  bounded : marks.length ≤ UInt32.size := by decide

namespace LiveMarks

instance : Inhabited LiveMarks := ⟨{}⟩

def isLive (m : LiveMarks) (row : RowId) : Bool := m.marks.get row

/-- Sets the mark of an id and counts it, whether or not the mark was set before. -/
def mark (m : LiveMarks) (row : RowId) : LiveMarks where
  marks := m.marks.set row true
  count := m.count + 1
  bounded := by
    have hsize : m.marks.values.size ≤ UInt32.size := m.bounded
    have hrow := row.toNat_lt_size
    simp only [Slots.length, Slots.set, Slots.put, Slots.grow, Array.size_setIfInBounds,
      Array.size_append, Array.size_replicate]
    omega

/-- Takes away the mark of an id that has one. -/
def unmark (m : LiveMarks) (row : RowId) : Except Error LiveMarks :=
  if m.isLive row then
    .ok { marks := m.marks.reset row
          count := m.count - 1
          bounded := by
            rw [Slots.length, Slots.reset, Slots.put, Array.size_setIfInBounds]
            exact m.bounded }
  else .error (.invalidRow row)

/-- The ids that are marked, lowest first. -/
def rows (m : LiveMarks) : List RowId :=
  m.marks.values.toList.zipIdx.filterMap fun ((live : Bool), i) =>
    if live then some (UInt32.ofNat i) else none

end LiveMarks

structure RowStore where
  /-- The lowest id never handed out or passed over. -/
  next : RowId := 0
  /-- Ids to hand out again, the next one first. -/
  free : List RowId := []
  /-- Ids removed in the current cycle, in the order of their removal. -/
  retired : List RowId := []
  live : LiveMarks := {}

namespace RowStore

instance : Inhabited RowStore := ⟨{}⟩

def isLive (s : RowStore) (row : RowId) : Bool := s.live.isLive row

def allocate (s : RowStore) : RowStore × RowId :=
  match s.free with
  | row :: rest => ({ s with free := rest, live := s.live.mark row }, row)
  | [] => ({ s with next := s.next + 1, live := s.live.mark s.next }, s.next)

def release (s : RowStore) (row : RowId) : Except Error RowStore :=
  (s.live.unmark row).map fun live => { s with free := row :: s.free, live := live }

def retire (s : RowStore) (row : RowId) : Except Error RowStore :=
  (s.live.unmark row).map fun live => { s with retired := s.retired ++ [row], live := live }

def recycle (s : RowStore) : RowStore :=
  { s with free := s.retired.reverse ++ s.free, retired := [] }

def claim (s : RowStore) (row : RowId) : Except Error (RowStore × Bool) :=
  if s.isLive row then .ok (s, false)
  else if s.next ≤ row then
    if row = 0xffffffff then .error (.invalidRow row)
    else .ok ({ s with next := row + 1, free := RowIds.span s.next row ++ s.free,
                       live := s.live.mark row }, true)
  else if row ∈ s.free then
    .ok ({ s with free := s.free.erase row, live := s.live.mark row }, true)
  else
    .ok ({ s with retired := s.retired.erase row, live := s.live.mark row }, true)

def liveRows (s : RowStore) : List RowId := s.live.rows

def size (s : RowStore) : Nat := s.live.count

def isEmpty (s : RowStore) : Bool := s.live.count == 0

def clear (_ : RowStore) : RowStore := {}

end RowStore

end TableFeed
