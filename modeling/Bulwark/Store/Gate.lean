import Bulwark.Store.Basic

/-!
# The way to the store

A layer reaches its store through a gate, which can make calls fail.  A call first takes the next
item of a plan, if there is one; an error there ends it.  A call that gets further is counted, and
then refused while the connection is switched off.  Only then does it reach the store.
-/

namespace Bulwark

/-- A store behind planned failures and a switch. -/
structure Gate where
  store : Store
  /-- Where the store's scans see a key. -/
  position : String → Nat
  /-- What happens to the next calls: an error ends the call, none lets it pass. -/
  plan : List (Option StoreError)
  /-- Whether the connection is switched off. -/
  failing : Bool
  /-- The calls that got as far as the switch. -/
  calls : UInt64

namespace Gate

/-- A gate that lets every call pass. -/
def opened (position : String → Nat) (store : Store) : Gate := ⟨store, position, [], false, 0⟩

/-- The error of a connection that is switched off. -/
def connectionRefused : StoreError := .unavailable "connection refused"

/-- A call that has passed the plan. -/
def connect {β : Type} (g : Gate) (operation : Store → Store.Result β) :
    Except StoreError β × Gate :=
  let g := { g with calls := g.calls + 1 }
  if g.failing then (.error connectionRefused, g)
  else
    let (answer, store) := operation g.store
    (answer, { g with store })

/-- A call of a store operation. -/
def call {β : Type} (g : Gate) (operation : Store → Store.Result β) : Except StoreError β × Gate :=
  match g.plan with
  | some e :: rest => (.error e, { g with plan := rest })
  | none :: rest => { g with plan := rest }.connect operation
  | [] => g.connect operation

/-- One page of a scan. -/
def scan (g : Gate) (now : Instant) (keyPrefix : String) (cursor count : Nat) :
    Except StoreError (Nat × List String) × Gate :=
  g.call fun s => s.scan g.position now keyPrefix cursor count

end Gate
end Bulwark
