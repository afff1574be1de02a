import Bulwark.Quantity

/-!
# Token buckets

A bucket holds tokens, at most its capacity, and gains `rate` of them per interval.  One admission
step refills it up to now and then takes the cost of a request if there are enough tokens.

Refill adds whole tokens only.  The refill time moves forward by no more than the time that the
added tokens account for, so progress towards the next token survives any number of calls; a bucket
that is full again counts from now.  A refill time ahead of the clock, which a writer with a clock
ahead of ours may have left, counts as no time passed.
-/

namespace Bulwark

/-- The state of one bucket: the tokens in it, and the time up to which it has been refilled. -/
structure Bucket (α : Type) where
  tokens : α
  lastRefill : α
  deriving DecidableEq, Repr

/-- One admission step. -/
structure Bucket.Request (α : Type) where
  /-- The tokens that the bucket can hold. -/
  capacity : α
  /-- The tokens gained per interval. -/
  rate : α
  /-- The length of the interval in seconds. -/
  interval : α
  /-- The tokens that the request costs. -/
  cost : α
  /-- The time in seconds since the Unix epoch. -/
  now : α
  /-- How long an untouched bucket is kept, in seconds. -/
  ttlSeconds : Nat
  deriving Repr

/-- What an admission step decides. -/
structure Bucket.Outcome (α : Type) where
  allowed : Bool
  /-- The tokens left. -/
  remaining : α
  deriving DecidableEq, Repr

namespace Bucket

/-- The store field that holds the tokens. -/
def tokensField : String := "tokens"

/-- The store field that holds the refill time. -/
def lastRefillField : String := "last_refill"

variable {α : Type} [Quantity α]

open Quantity

/-- A bucket nobody has used yet is full. -/
def Request.fresh (r : Request α) : Bucket α := ⟨r.capacity, r.now⟩

/-- The whole tokens gained since the last refill. -/
def Request.gained (r : Request α) (b : Bucket α) : α :=
  floor (maximum (r.now - b.lastRefill) zero / r.interval * r.rate)

/-- The bucket refilled up to now. -/
def Request.refill (r : Request α) (b : Bucket α) : Bucket α :=
  let gained := r.gained b
  let tokens := minimum (maximum b.tokens zero + gained) r.capacity
  let lastRefill :=
    if r.capacity ≤ tokens then r.now
    else if zero < gained then minimum (b.lastRefill + gained * r.interval / r.rate) r.now
    else minimum b.lastRefill r.now
  ⟨tokens, lastRefill⟩

/-- Takes the cost out of a refilled bucket if there are enough tokens. -/
def Request.charge (r : Request α) (b : Bucket α) : Bucket α × Outcome α :=
  if r.cost ≤ b.tokens then
    let left := b.tokens - r.cost
    (⟨left, b.lastRefill⟩, ⟨true, left⟩)
  else (b, ⟨false, b.tokens⟩)

/-- One admission step on a bucket, or on a fresh one if there is none. -/
def Request.apply (r : Request α) (current : Option (Bucket α)) : Bucket α × Outcome α :=
  r.charge (r.refill (current.getD r.fresh))

/-- The states and outcomes of successive steps. -/
def run : Option (Bucket α) → List (Request α) → List (Bucket α × Outcome α)
  | _, [] => []
  | current, r :: rest =>
    let step := r.apply current
    step :: run (some step.1) rest

end Bucket
end Bulwark
