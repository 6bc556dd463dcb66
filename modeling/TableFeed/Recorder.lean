import TableFeed.Publisher

/-!
An input that keeps everything it is told, and the schema and live rows that follow from it.
-/

namespace TableFeed

structure Recorder where
  events : List Notice := []
  schema : Option Schema := none
  live : RowSet := ∅
  deriving DecidableEq

namespace Recorder

instance : Inhabited Recorder := ⟨{}⟩

def hear (r : Recorder) (n : Notice) : Recorder :=
  let r := { r with events := r.events ++ [n] }
  match n with
  | .source _ => r
  | .schema s => { r with schema := s, live := ∅ }
  | .added rows => { r with live := r.live.insertAll rows }
  | .changed _ _ => r
  | .removed rows => { r with live := r.live.eraseAll rows }

/-- Forgets what was told and keeps what follows from it. -/
def clear (r : Recorder) : Recorder := { r with events := [] }

end Recorder

end TableFeed
