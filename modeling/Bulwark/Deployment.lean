import Bulwark.Layer
import Bulwark.Store.Command
import Bulwark.Time.Clock

/-!
# Deployments

A deployment is one clock, one store behind its gate, and layers that work on them side by side.
Each layer has a breaker and a queue to the shared statistics of its own; the counters are kept in
ledgers, and layers that name the same ledger count together.

A deployment moves in steps, and a step is made whole before the next begins.  After a call of a
layer its queue to the shared statistics is written until it is empty, so between two steps nothing
is under way.
-/

namespace Bulwark

/-- A layer at work. -/
structure Member (α : Type) where
  layer : Layer α
  breaker : Breaker
  backlog : Backlog
  /-- The number of the ledger in which it counts. -/
  ledger : Nat

/-- A layer that has done nothing yet. -/
def Member.fresh {α : Type} (layer : Layer α) (ledger : Nat) : Member α :=
  ⟨layer, .fresh, .empty, ledger⟩

/-- One clock, one store, and the layers that work on them. -/
structure Deployment (α : Type) where
  clock : Instant
  gate : Gate
  members : List (Member α)
  ledgers : List Counters

namespace Deployment

variable {α β γ : Type}

/-- The same layer so many times, with a ledger for each or one for all. -/
def ofCopies (clock : Instant) (gate : Gate) (layer : Layer α) (copies : Nat) (shareLedger : Bool) :
    Deployment α where
  clock := clock
  gate := gate
  members := (List.range copies).map fun i => .fresh layer (if shareLedger then 0 else i)
  ledgers := List.replicate (if shareLedger then 1 else copies) .zero

/-- A store and a clock that nobody works on. -/
def ofStore (clock : Instant) (gate : Gate) : Deployment α := ⟨clock, gate, [], []⟩

/-! ## Calls of layers -/

/-- Runs an action of one layer, writes its queue, and gives the answer and the events. -/
def serve [Quantity α] [QuantityText α] (d : Deployment α) (i : Nat)
    (action : Layer α → Instant → Layer.Action γ) : Except Halt ((γ × List Event) × Deployment α) :=
  match d.members[i]? with
  | none => .error .noSuchLayer
  | some m => do
    let session : Layer.Session :=
      ⟨d.gate, m.breaker, m.backlog, (d.ledgers[m.ledger]?).getD .zero, []⟩
    let whole : Layer.Action γ := do
      let answer ← action m.layer d.clock
      m.layer.drain d.clock
      pure answer
    let (answer, t) ← StateT.run whole session
    .ok ((answer, t.events), { d with
      gate := t.gate
      members := d.members.set i { m with breaker := t.breaker, backlog := t.backlog }
      ledgers := d.ledgers.set m.ledger t.counters })

/-! ## Steps -/

/-- A step of a deployment. -/
inductive Step (α β : Type) where
  | move (m : ClockMove)
  /-- Switches the connection to the store off or on. -/
  | setFailing (failing : Bool)
  /-- Replaces the plan of failures. -/
  | setPlan (plan : List (Option StoreError))
  | storeCalls
  /-- A command to the store, past the gate. -/
  | store (c : Store.Command α)
  /-- A whole scan of the store, past the gate. -/
  | walk (keyPrefix : String) (count : Nat) (deleting : Bool)
  /-- So many calls of a layer in a row. -/
  | call (layer : Nat) (times : Nat) (c : Layer.Call α β)

/-- What a step answers. -/
inductive StepReply (α β : Type) where
  | clock (t : Instant)
  | done
  | storeCalls (n : UInt64)
  | store (answer : Except StoreError (Store.Answer α))
  | walked (pages : List (List String))
  | called (replies : List (Layer.Reply α β)) (events : List Event)

/-- Makes a step. -/
def step [Quantity α] [QuantityText α] (samples : Nat → α) (d : Deployment α) :
    Step α β → Except Halt (StepReply α β × Deployment α)
  | .move m => do
    let clock ← m.apply d.clock
    .ok (.clock clock, { d with clock })
  | .setFailing failing => .ok (.done, { d with gate := { d.gate with failing } })
  | .setPlan plan => .ok (.done, { d with gate := { d.gate with plan } })
  | .storeCalls => .ok (.storeCalls d.gate.calls, d)
  | .store c =>
    let (answer, store) := d.gate.store.perform d.gate.position d.clock c
    .ok (.store answer, { d with gate := { d.gate with store } })
  | .walk keyPrefix count deleting =>
    let (pages, store) := d.gate.store.walk d.gate.position d.clock keyPrefix count deleting
    .ok (.walked pages, { d with gate := { d.gate with store } })
  | .call layer times c => do
    let ((replies, events), d) ←
      d.serve layer fun l now => l.performTimes now samples c times
    .ok (.called replies events, d)

end Deployment
end Bulwark
