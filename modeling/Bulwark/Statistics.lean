import Bulwark.Dimension

/-!
# Counters

What a layer counts: admission decisions per kind, finished operations, and changes and lookups of
the blacklist.  A counter has 64 bits and starts over after the last number.
-/

namespace Bulwark

/-- The share of a part in a whole, zero of nothing. -/
def share (part whole : UInt64) : Float := if whole = 0 then 0 else part.toFloat / whole.toFloat

/-- The sum of two counts, the largest count if it is larger. -/
def addSaturatingCount (a b : UInt64) : UInt64 :=
  if a.toNat + b.toNat < UInt64.size then a + b else UInt64.ofNat (UInt64.size - 1)

/-- Decisions on one kind of dimension. -/
structure AdmissionCount where
  total : UInt64
  allowed : UInt64
  blocked : UInt64
  /-- Admissions granted because the check itself could not be made. -/
  failOpen : UInt64
  deriving DecidableEq, Repr, Inhabited

namespace AdmissionCount

/-- Nothing decided yet. -/
def zero : AdmissionCount := ⟨0, 0, 0, 0⟩

/-- One more decision. -/
def record (c : AdmissionCount) (allowed : Bool) : AdmissionCount :=
  if allowed then { c with total := c.total + 1, allowed := c.allowed + 1 }
  else { c with total := c.total + 1, blocked := c.blocked + 1 }

/-- One more admission without a check. -/
def recordFailOpen (c : AdmissionCount) : AdmissionCount := { c with failOpen := c.failOpen + 1 }

/-- The share of rejections. -/
def blockRate (c : AdmissionCount) : Float := share c.blocked c.total

end AdmissionCount

/-- How an operation ended. -/
inductive Ending where
  /-- With a real result. -/
  | success
  /-- With a fault handed to the caller. -/
  | failure
  /-- With a degraded response. -/
  | degradation
  /-- With an open circuit. -/
  | circuitTrip
  deriving DecidableEq, Repr

/-- Finished operations. -/
structure RecoveryCount where
  totalAttempts : UInt64
  successes : UInt64
  failures : UInt64
  degradations : UInt64
  circuitTrips : UInt64
  deriving DecidableEq, Repr, Inhabited

namespace RecoveryCount

/-- Nothing finished yet. -/
def zero : RecoveryCount := ⟨0, 0, 0, 0, 0⟩

/-- One more operation that ended after so many attempts. -/
def record (c : RecoveryCount) (attempts : Nat) (ending : Ending) : RecoveryCount :=
  let c := { c with totalAttempts := c.totalAttempts + UInt64.ofNat attempts }
  match ending with
  | .success => { c with successes := c.successes + 1 }
  | .failure => { c with failures := c.failures + 1 }
  | .degradation => { c with degradations := c.degradations + 1 }
  | .circuitTrip => { c with circuitTrips := c.circuitTrips + 1 }

/-- How many operations have ended. -/
def invocations (c : RecoveryCount) : UInt64 :=
  addSaturatingCount (addSaturatingCount (addSaturatingCount c.successes c.failures) c.degradations)
    c.circuitTrips

/-- The share of real results. -/
def successRate (c : RecoveryCount) : Float := share c.successes c.invocations

end RecoveryCount

/-- Changes and lookups of the blacklist. -/
structure RevocationCount where
  added : UInt64
  /-- Entries lifted or swept. -/
  removed : UInt64
  /-- Lookups that the store answered. -/
  lookups : UInt64
  /-- Lookups that found a revoked token. -/
  hits : UInt64
  /-- Lookups that the store could not answer. -/
  lookupErrors : UInt64
  deriving DecidableEq, Repr, Inhabited

namespace RevocationCount

/-- Nothing done yet. -/
def zero : RevocationCount := ⟨0, 0, 0, 0, 0⟩

/-- One more entry written. -/
def recordAdded (c : RevocationCount) : RevocationCount := { c with added := c.added + 1 }

/-- One more entry lifted or swept. -/
def recordRemoved (c : RevocationCount) : RevocationCount := { c with removed := c.removed + 1 }

/-- One more lookup that the store answered. -/
def recordLookup (c : RevocationCount) (hit : Bool) : RevocationCount :=
  { c with lookups := c.lookups + 1, hits := if hit then c.hits + 1 else c.hits }

/-- One more lookup that the store could not answer. -/
def recordLookupError (c : RevocationCount) : RevocationCount :=
  { c with lookupErrors := c.lookupErrors + 1 }

end RevocationCount

/-- Everything that a layer counts. -/
structure Counters where
  recovery : RecoveryCount
  admission : PerKind AdmissionCount
  revocation : RevocationCount
  deriving DecidableEq, Repr, Inhabited

/-- Nothing counted yet. -/
def Counters.zero : Counters := ⟨.zero, .replicate .zero, .zero⟩

end Bulwark
