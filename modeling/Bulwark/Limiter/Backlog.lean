import Bulwark.Limiter.Settings
import Bulwark.Statistics

/-!
# The queue to the shared statistics

Decisions of the store are counted there too, off the path of the check.  They wait in a queue of
limited length; one that finds it full is dropped and counted as such.  A drain takes decisions off
the queue in batches of at most 64 and folds a batch into one tally per kind, in the order of the
kinds.  A tally waits until it is written and is gone then, written or not, so at every moment a
decision is in exactly one of four places: the queue, a waiting tally, the store, or lost.
-/

namespace Bulwark

/-- A decision for the shared statistics. -/
structure Decision where
  kind : DimensionKind
  allowed : Bool
  deriving DecidableEq, Repr

/-- Decisions on one kind that are not yet written. -/
structure Tally where
  kind : DimensionKind
  allowed : Nat
  blocked : Nat
  deriving DecidableEq, Repr

namespace Tally

/-- The tally of one kind in a batch, if the kind occurs. -/
def ofBatch? (batch : List Decision) (kind : DimensionKind) : Option Tally :=
  let mine := batch.filter (·.kind == kind)
  if mine.isEmpty then none
  else some ⟨kind, mine.countP (·.allowed), mine.countP (!·.allowed)⟩

/-- The tallies of a batch, in the order of the kinds. -/
def ofBatch (batch : List Decision) : List Tally := DimensionKind.all.filterMap (ofBatch? batch)

/-- The increments that write a tally. -/
def increments (t : Tally) : List (String × Int) :=
  [("total", (t.allowed + t.blocked : Nat)), ("allowed", (t.allowed : Nat)),
    ("blocked", (t.blocked : Nat))]

end Tally

/-- The decisions on their way to the store. -/
structure Backlog where
  queue : List Decision
  /-- Tallies taken off the queue and not yet written. -/
  pending : List Tally
  /-- Decisions that found the queue full. -/
  dropped : UInt64
  deriving DecidableEq, Repr

namespace Backlog

/-- Nothing under way. -/
def empty : Backlog := ⟨[], [], 0⟩

/-- The largest batch. -/
def maxBatch : Nat := 64

/-- The longest queue that can be set up: `2^61 - 1`. -/
def maxCapacity : Nat := 2305843009213693951

/-- Queues a decision, or drops it when the queue is full.  There is always room for one. -/
def offer (m : Backlog) (capacity : Nat) (decision : Decision) : Backlog :=
  if m.queue.length < max capacity 1 then { m with queue := m.queue ++ [decision] }
  else { m with dropped := m.dropped + 1 }

/-- Takes a batch off the queue. -/
def takeBatch (m : Backlog) (size : Nat) : Backlog :=
  let size := min size maxBatch
  { m with
    queue := m.queue.drop size
    pending := m.pending ++ Tally.ofBatch (m.queue.take size) }

end Backlog
end Bulwark
