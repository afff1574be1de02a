import Bulwark.Limiter.Backlog
import Bulwark.Store.Gate

/-!
# The limiter

Decides whether a request may proceed along one or several dimensions.  A decision is one admission
step on a bucket in the store.  Admission favours availability: when the parameters are useless,
when the breaker refuses, or when the store call fails, the request is let in, with a log entry.

A call works on a `Limiter.Session`: the store behind its gate, the breaker, the queue to the shared
statistics, the counts of decisions, and what has been logged.  It touches nothing else, and it
never fails but where its type says so.
-/

namespace Bulwark.Limiter

/-- What the calls of a limiter work on. -/
structure Session where
  gate : Gate
  breaker : Breaker
  backlog : Backlog
  admission : PerKind AdmissionCount
  log : List LogEntry

/-- A call of a limiter. -/
abbrev Action := StateM Session

/-- A call of the store. -/
def callStore {β : Type} (operation : Store → Store.Result β) : Action (Except StoreError β) :=
  fun s =>
    let (answer, gate) := s.gate.call operation
    (answer, { s with gate })

/-- Logs entries. -/
def say (entries : List LogEntry) : Action Unit :=
  modify fun s => { s with log := s.log ++ entries }

/-- Changes the counts of a kind. -/
def count (kind : DimensionKind) (f : AdmissionCount → AdmissionCount) : Action Unit :=
  modify fun s => { s with admission := s.admission.set kind (f (s.admission.get kind)) }

/-- Asks the breaker whether a store call may be made. -/
def askBreaker (settings : BreakerSettings) (now : Instant) : Action Bool := fun s =>
  let (allowed, breaker) := s.breaker.allow settings (Breaker.reading now)
  (allowed, { s with breaker })

/-- Tells the breaker that a store call has succeeded. -/
def reportSuccess : Action Unit := modify fun s =>
  { s with breaker := s.breaker.recordSuccess, log := s.log ++ s.breaker.successLog }

/-- Tells the breaker that a store call has failed. -/
def reportFailure (settings : BreakerSettings) (now : Instant) : Action Unit := modify fun s =>
  { s with
    breaker := s.breaker.recordFailure settings (Breaker.reading now)
    log := s.log ++ s.breaker.failureLog settings }

/-- Lets a request in without a decision of the store. -/
def failOpen (kind : DimensionKind) : Action Bool := do
  count kind fun c => c.recordFailOpen.record true
  pure true

/-- Counts a decision of the store, here and for the shared statistics. -/
def record (backlogCapacity : Nat) (kind : DimensionKind) (allowed : Bool) : Action Unit := do
  count kind (·.record allowed)
  modify fun s => { s with backlog := s.backlog.offer backlogCapacity ⟨kind, allowed⟩ }

/-! ## Checks -/

section Checks

variable {α : Type} [Quantity α] [QuantityText α]

/-- Whether a cost can be charged. -/
def isCost (cost : α) : Bool := Quantity.isFinite cost && decide (Quantity.zero ≤ cost)

/-- The log entry for parameters that describe no bucket. -/
def invalidParameters (d : Dimension) (capacity rate interval cost : α) : LogEntry :=
  .of .warn "Invalid rate limit parameters, failing open"
    [("dimension", d.render), ("capacity", QuantityText.renderLog capacity),
      ("rate", QuantityText.renderLog rate), ("interval_seconds", QuantityText.renderLog interval),
      ("cost", QuantityText.renderLog cost)]

/-- The admission step for explicit parameters. -/
def request (now : Instant) (capacity rate interval cost : α) : Bucket.Request α :=
  ⟨capacity, rate, interval, cost, Quantity.ofInstant now, Allowance.ttlOf interval⟩

/-- Checks one dimension with explicit parameters. -/
def checkWith (settings : LimiterSettings α) (now : Instant) (d : Dimension)
    (capacity rate interval cost : α) : Action Bool := do
  if !(Allowance.areValid capacity rate interval && isCost cost) then
    say [invalidParameters d capacity rate interval cost]
    failOpen d.kind
  else if !(← askBreaker settings.breaker now) then
    say [.of .debug "Store circuit open, failing open" [("dimension", d.render)]]
    failOpen d.kind
  else
    match ← callStore (·.takeTokens now (d.storageKey settings.keyPrefix)
        (request now capacity rate interval cost)) with
    | .ok outcome =>
      reportSuccess
      if !outcome.allowed then
        say [.of .debug "Rate limit exceeded"
          [("dimension", d.render), ("remaining", QuantityText.renderLog outcome.remaining)]]
      record settings.backlogCapacity d.kind outcome.allowed
      pure outcome.allowed
    | .error e =>
      reportFailure settings.breaker now
      say [.of .warn "Rate limit store unavailable, failing open"
        [("error", e.message), ("dimension", d.render)]]
      failOpen d.kind

/-- Checks one dimension with the parameters of its kind, at the cost of one token.  A kind that
takes no part lets everything in. -/
def check (settings : LimiterSettings α) (now : Instant) (d : Dimension) : Action Bool :=
  let a := settings.allowances.get d.kind
  if a.enabled then checkWith settings now d a.capacity a.rate a.interval Quantity.one
  else pure true

/-- The dimensions of a request, in the order of checking.  A request without a user has none of
that kind. -/
def dimensionsOf (ip : String) (user : Option String) (endpoint : String) : List Dimension :=
  [.global, ⟨.ip, ip⟩] ++ (user.map (Dimension.mk .user)).toList ++ [⟨.endpoint, endpoint⟩]

/-- Checks dimensions in order, up to the first that rejects. -/
def checkEach (settings : LimiterSettings α) (now : Instant) : List Dimension → Action Bool
  | [] => pure true
  | d :: rest => do
    if ← check settings now d then checkEach settings now rest else pure false

/-- Checks all dimensions of a request. -/
def checkAll (settings : LimiterSettings α) (now : Instant) (ip : String) (user : Option String)
    (endpoint : String) : Action Bool :=
  checkEach settings now (dimensionsOf ip user endpoint)

end Checks

/-! ## Maintenance -/

/-- Deletes the bucket of a dimension, and tells whether there was one. -/
def resetBucket (keyPrefix : String) (now : Instant) (d : Dimension) :
    Action (Except StoreError Bool) :=
  callStore (·.delete now (d.storageKey keyPrefix))

/-- The bucket of a dimension as it was last written, without refill. -/
def bucketState {α : Type} [QuantityText α] (keyPrefix : String) (now : Instant) (d : Dimension) :
    Action (Except StoreError (Option (Bucket α))) := do
  let key := d.storageKey keyPrefix
  match ← callStore (·.hashGet now key Bucket.tokensField) with
  | .error e => pure (.error e)
  | .ok tokens =>
    match ← callStore (·.hashGet now key Bucket.lastRefillField) with
    | .error e => pure (.error e)
    | .ok lastRefill => pure (.ok do
        some ⟨← tokens.bind QuantityText.read?, ← lastRefill.bind QuantityText.read?⟩)

/-- A count in the shared statistics: zero if there is none, or none that can be read. -/
def readCount (now : Instant) (key field : String) : Action (Except StoreError UInt64) := do
  match ← callStore (·.hashGet now key field) with
  | .error e => pure (.error e)
  | .ok text => pure (.ok (UInt64.ofNat ((text.bind Text.unsigned?).getD 0)))

/-- The shared statistics of a kind, over everybody who writes them. -/
def sharedStatistics (keyPrefix : String) (now : Instant) (kind : DimensionKind) :
    Action (Except StoreError AdmissionCount) := do
  let key := statisticsKey keyPrefix kind
  match ← readCount now key "total" with
  | .error e => pure (.error e)
  | .ok total =>
    match ← readCount now key "allowed" with
    | .error e => pure (.error e)
    | .ok allowed =>
      match ← readCount now key "blocked" with
      | .error e => pure (.error e)
      | .ok blocked => pure (.ok ⟨total, allowed, blocked, 0⟩)

/-! ## Draining the queue -/

/-- Writes one tally.  A failure is logged, and the tally is lost. -/
def writeTally (keyPrefix : String) (now : Instant) (t : Tally) : Action Unit := do
  let key := statisticsKey keyPrefix t.kind
  match ← callStore (·.hashIncrementAll now key t.increments) with
  | .ok () => pure ()
  | .error e =>
    say [.of .debug "Failed to mirror admission statistics" [("error", e.message), ("key", key)]]

/-- One step of a drain: writes the first waiting tally, or takes the next batch if none waits. -/
def drainStep (keyPrefix : String) (now : Instant) (size : Nat) : Action Unit := fun s =>
  match s.backlog.pending with
  | t :: rest =>
    writeTally keyPrefix now t { s with backlog := { s.backlog with pending := rest } }
  | [] => ((), { s with backlog := s.backlog.takeBatch size })

/-- Drains in batches as large as they may be, for so many steps or until nothing is under way. -/
def drainSteps (keyPrefix : String) (now : Instant) : Nat → Action Unit
  | 0 => pure ()
  | fuel + 1 => fun s =>
    if s.backlog.queue.isEmpty ∧ s.backlog.pending.isEmpty then ((), s)
    else (do drainStep keyPrefix now Backlog.maxBatch; drainSteps keyPrefix now fuel) s

/-- Drains until nothing is under way.  A batch takes at least one decision off the queue and makes
at most one tally for each, so two steps for each decision are enough. -/
def drain (keyPrefix : String) (now : Instant) : Action Unit := fun s =>
  drainSteps keyPrefix now (2 * s.backlog.queue.length + s.backlog.pending.length) s

end Bulwark.Limiter
