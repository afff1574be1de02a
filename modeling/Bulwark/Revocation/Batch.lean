import Bulwark.Revocation.Blacklist

/-!
# Batches at once

The revocations of a batch do not wait for each other.  Up to sixteen are under way, and whenever
there is something to go on with, any of them may be the one that goes on, or the next token may be
begun.  A revocation is begun, then it is written to the store, and then it is reported and counted;
in between, the others get on.

Which of them goes on at a step is left to an order, a number for each step that is taken for one of
the ways to go on.  `addAll` works off a whole batch in some order.
-/

namespace Bulwark.Blacklist

variable (b : Blacklist) (now : Instant) (reason : String) (ttlSeconds : Nat)

/-- A revocation up to the answer of the store. -/
def write (token : String) : Action (Except Fault Unit) :=
  match rejection? token reason ttlSeconds with
  | some fault => pure (.error fault)
  | none => do
    let entry : BlacklistEntry := ⟨reason, ← Timestamp.ofClock now, ttlSeconds⟩
    match ← callStore (·.set now (b.key token) entry.render (some (.ofSeconds ttlSeconds))) with
    | .error e => pure (.error (.store e))
    | .ok () => pure (.ok ())

/-- What is reported of a revocation in a batch. -/
def outcomeEvents (token : String) : Except Fault Unit → List Event
  | .ok () =>
    let masked := maskToken token
    let ttl := Nat.repr ttlSeconds
    [.log (.of .info "Token revoked"
      [("token", masked), ("reason", reason), ("ttl_seconds", ttl)]),
    audit "add" ("token " ++ masked ++ " revoked for " ++ ttl ++ "s: " ++ reason)]
  | .error fault => [.log (.of .debug "Skipping token in batch"
      [("token", maskToken token), ("error", fault.message)])]

/-- A revocation from the answer of the store on. -/
def conclude (token : String) (answer : Except Fault Unit) : Action Unit := do
  report (outcomeEvents reason ttlSeconds token answer)
  match answer with
  | .ok () => count (·.recordAdded)
  | .error _ => pure ()

/-- A revocation that is under way. -/
inductive Task where
  | begun (token : String)
  /-- The answer is there, and nothing has come of it so far. -/
  | answered (token : String) (answer : Except Fault Unit)

/-- How far a batch has come. -/
structure Batch where
  /-- The tokens that have not been begun. -/
  waiting : List String
  underWay : List Task
  /-- The tokens that are done with, and how that ended. -/
  finished : List (String × Except Fault Unit)

/-- So many revocations may be under way. -/
def batchWidth : Nat := 16

namespace Batch

/-- How many ways there are to go on. -/
def options (p : Batch) : Nat :=
  p.underWay.length + if p.waiting.isEmpty || batchWidth ≤ p.underWay.length then 0 else 1

/-- How many revocations have worked. -/
def added (p : Batch) : Nat := p.finished.countP (·.2.isOk)

/-- One of the ways to go on: with a revocation that is under way, or with the next token. -/
def step (p : Batch) (choice : Nat) : Action Batch :=
  let i := choice % p.options
  match p.underWay[i]?, p.waiting with
  | some (.begun token), _ => do
    let answer ← b.write now reason ttlSeconds token
    return { p with underWay := p.underWay.set i (.answered token answer) }
  | some (.answered token answer), _ => do
    conclude reason ttlSeconds token answer
    return { p with
      underWay := p.underWay.eraseIdx i
      finished := p.finished ++ [(token, answer)] }
  | none, token :: rest =>
    return { p with waiting := rest, underWay := p.underWay ++ [.begun token] }
  | none, [] => return p

/-- One step after the other. -/
def run (p : Batch) (choices : List Nat) : Action Batch :=
  choices.foldlM (step b now reason ttlSeconds) p

end Batch

/-- Revokes tokens at once, in some order.  Every token takes three steps. -/
def runBatch (tokens : List String) (order : Nat → Nat) : Action Batch :=
  Batch.run b now reason ttlSeconds ⟨tokens, [], []⟩ ((List.range (3 * tokens.length)).map order)

/-- Revokes tokens at once, in some order, and gives the number of those that worked. -/
def addAll (tokens : List String) (order : Nat → Nat) : Action Nat :=
  return (← b.runBatch now reason ttlSeconds tokens order).added

end Bulwark.Blacklist
