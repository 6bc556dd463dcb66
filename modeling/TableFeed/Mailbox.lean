/-!
Bounded queues between two ends. Offering to a full queue, or to one whose other end is gone, is
refused.
-/

namespace TableFeed

inductive Refusal
  | full | closed
  deriving DecidableEq, Repr

structure Mailbox (α : Type) where
  capacity : Nat
  items : List α := []
  closed : Bool := false

namespace Mailbox

variable {α : Type}

/-- A queue for at least one item. -/
def create (capacity : Nat) : Mailbox α := { capacity := max capacity 1 }

instance : Inhabited (Mailbox α) := ⟨create 1⟩

def offer (m : Mailbox α) (a : α) : Except Refusal (Mailbox α) :=
  if m.closed then .error .closed
  else if m.capacity ≤ m.items.length then .error .full
  else .ok { m with items := m.items ++ [a] }

def close (m : Mailbox α) : Mailbox α := { m with closed := true }

end Mailbox

end TableFeed
