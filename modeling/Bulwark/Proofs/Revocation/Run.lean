import Bulwark.Revocation.Call

/-!
# Runs of blacklists

Layers that share a store and a prefix make calls of their blacklists in any order.  In between,
anything may happen at the gate and behind it: failures are planned, the connection is switched, the
store is changed by others.  What a layer has counted so far is left open at each of its calls.
-/

namespace Bulwark.Blacklist

/-- A call of one of the layers. -/
structure Turn where
  /-- How the layer answers without the store. -/
  failureMode : FailureMode
  /-- What the layer has counted so far. -/
  counts : RevocationCount
  /-- What the clock shows. -/
  now : Instant
  call : Call

/-- What happens in a run. -/
inductive Happening where
  | turn (t : Turn)
  /-- Somebody changes something at the gate or behind it. -/
  | outside (change : Gate → Gate)

/-- A call that has been made. -/
structure Record where
  turn : Turn
  /-- The session in which the call was made. -/
  before : Session
  reply : Reply
  /-- What the call has reported. -/
  events : List Event

/-- The calls of a run from a gate on, up to one that halts. -/
def history (keyPrefix : String) : Gate → List Happening → List Record × Option Halt
  | _, [] => ([], none)
  | g, .outside change :: rest => history keyPrefix (change g) rest
  | g, .turn t :: rest =>
    let before : Session := ⟨g, t.counts, []⟩
    match perform ⟨keyPrefix, t.failureMode⟩ t.now t.call before with
    | .error halt => ([], some halt)
    | .ok (reply, after) =>
      let (records, halt) := history keyPrefix after.gate rest
      (⟨t, before, reply, after.events⟩ :: records, halt)

/-- What the clock shows in the calls of a run. -/
def times (hs : List Happening) : List Instant :=
  hs.filterMap fun
    | .turn t => some t.now
    | .outside _ => none

/-- The gate after a run, unless a call halts. -/
def gateAfter (keyPrefix : String) : Gate → List Happening → Except Halt Gate
  | g, [] => .ok g
  | g, .outside change :: rest => gateAfter keyPrefix (change g) rest
  | g, .turn t :: rest =>
    match perform ⟨keyPrefix, t.failureMode⟩ t.now t.call ⟨g, t.counts, []⟩ with
    | .error halt => .error halt
    | .ok (_, after) => gateAfter keyPrefix after.gate rest

end Bulwark.Blacklist
