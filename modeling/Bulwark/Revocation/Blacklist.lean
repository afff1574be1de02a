import Bulwark.Event
import Bulwark.Revocation.Entry
import Bulwark.Revocation.Mask
import Bulwark.Statistics
import Bulwark.Store.Gate
import Bulwark.Text.Blank
import Bulwark.Time.Clock

/-!
# The blacklist

Revoked tokens, each under a key of its own with the lifetime of its revocation.  A token is revoked
while its key is live, unless the entry there says that it has lapsed; an entry that cannot be read
counts as a revocation.  When the store cannot answer, the failure mode does.  A blank token is
never revoked.

Events name tokens by their masks only.  A call works on a `Blacklist.Session`: the store behind its
gate, the counts of the blacklist, and the events so far.  It halts only where it has to date the
clock's reading and the calendar has no date for it.
-/

namespace Bulwark

/-- Where entries are kept, and how a lookup answers that the store cannot. -/
structure Blacklist where
  keyPrefix : String
  failureMode : FailureMode
  deriving DecidableEq, Repr

/-- An entry, and the lifetime that the store still grants it, if it is limited. -/
structure RevocationInfo where
  entry : BlacklistEntry
  remaining : Option Duration
  deriving DecidableEq, Repr

namespace Blacklist

/-- What the calls of a blacklist work on. -/
structure Session where
  gate : Gate
  counts : RevocationCount
  events : List Event

/-- A call of a blacklist. -/
abbrev Action := StateT Session (Except Halt)

/-- A call of the store. -/
def callStore {β : Type} (operation : Store → Store.Result β) : Action (Except StoreError β) :=
  fun s =>
    let (answer, gate) := s.gate.call operation
    .ok (answer, { s with gate })

/-- Reports events. -/
def report (events : List Event) : Action Unit :=
  modify fun s => { s with events := s.events ++ events }

/-- Changes the counts. -/
def count (f : RevocationCount → RevocationCount) : Action Unit :=
  modify fun s => { s with counts := f s.counts }

/-- The category of the audit events. -/
def auditCategory : String := "revocation"

/-- An audit event of the blacklist. -/
def audit (operation message : String) : Event := .audit ⟨auditCategory, operation, message⟩

/-- Keys on a page of a scan. -/
def pageSize : Nat := 100

variable (b : Blacklist)

/-- The store key of a token. -/
def key (token : String) : String := b.keyPrefix ++ token

/-! ## Single tokens -/

/-- What is wrong with the arguments of a revocation, if anything. -/
def rejection? (token reason : String) (ttlSeconds : Nat) : Option Fault :=
  if Text.allBlank token then some (.validation "token must not be empty")
  else if Text.allBlank reason then some (.validation "reason must not be empty")
  else if ttlSeconds = 0 then some (.validation "ttl_seconds must be positive")
  else none

/-- Revokes a token.  Revoking it again replaces the entry and starts its lifetime anew. -/
def add (now : Instant) (token reason : String) (ttlSeconds : Nat) : Action (Except Fault Unit) :=
  match rejection? token reason ttlSeconds with
  | some fault => pure (.error fault)
  | none => do
    let entry : BlacklistEntry := ⟨reason, ← Timestamp.ofClock now, ttlSeconds⟩
    match ← callStore (·.set now (b.key token) entry.render (some (.ofSeconds ttlSeconds))) with
    | .error e => pure (.error (.store e))
    | .ok () =>
      let masked := maskToken token
      let ttl := Nat.repr ttlSeconds
      report [
        .log (.of .info "Token revoked"
          [("token", masked), ("reason", reason), ("ttl_seconds", ttl)]),
        audit "add" ("token " ++ masked ++ " revoked for " ++ ttl ++ "s: " ++ reason)]
      count (·.recordAdded)
      pure (.ok ())

/-- Revokes a token and tells whether that worked. -/
def addOrLog (now : Instant) (token reason : String) (ttlSeconds : Nat) : Action Bool := do
  match ← b.add now token reason ttlSeconds with
  | .ok () => pure true
  | .error fault =>
    report [.log (.of .warn "Failed to revoke token"
      [("token", maskToken token), ("error", fault.message)])]
    pure false

/-- Whether a text that the store holds for a token means that it is revoked. -/
def revokes (now : Instant) (text : String) : Action Bool :=
  match BlacklistEntry.read? text with
  | none => pure true
  | some entry => return !entry.isExpiredAt (← Timestamp.ofClock now)

/-- Whether a token is revoked. -/
def isRevoked (now : Instant) (token : String) : Action Bool :=
  if Text.allBlank token then pure false
  else do
    match ← callStore (·.get now (b.key token)) with
    | .ok none =>
      count (·.recordLookup false)
      pure false
    | .ok (some text) =>
      let revoked ← revokes now text
      count (·.recordLookup revoked)
      pure revoked
    | .error e =>
      let revoked := b.failureMode.revokedOnError
      report [.log (.of .warn "Revocation lookup failed"
        [("token", maskToken token), ("error", e.message),
          ("failure_mode", b.failureMode.logName), ("revoked", toString revoked)])]
      count (·.recordLookupError)
      pure revoked

/-- The entry of a token that has not lapsed, and the lifetime that the store still grants it.

The error of a text that is no entry is given up to the masked token.  A colon and the decoder's own
account of what is wrong with the text follow there, and are left out. -/
def info (now : Instant) (token : String) : Action (Except Fault (Option RevocationInfo)) :=
  if Text.allBlank token then pure (.ok none)
  else do
    match ← callStore (·.get now (b.key token)) with
    | .error e => pure (.error (.store e))
    | .ok none => pure (.ok none)
    | .ok (some text) =>
      match BlacklistEntry.read? text with
      | none =>
        pure (.error (.store (.protocol
          ("undecodable blacklist entry for " ++ maskToken token))))
      | some entry =>
        if entry.isExpiredAt (← Timestamp.ofClock now) then pure (.ok none)
        else
          match ← callStore (·.ttl now (b.key token)) with
          | .error e => pure (.error (.store e))
          | .ok (.expires remaining) => pure (.ok (some ⟨entry, some remaining⟩))
          | .ok _ => pure (.ok (some ⟨entry, none⟩))

/-- Lifts the revocation of a token, and tells whether there was one. -/
def remove (now : Instant) (token : String) : Action (Except StoreError Bool) :=
  if Text.allBlank token then pure (.ok false)
  else do
    match ← callStore (·.delete now (b.key token)) with
    | .error e => pure (.error e)
    | .ok false => pure (.ok false)
    | .ok true =>
      let masked := maskToken token
      report [
        .log (.of .info "Token revocation lifted" [("token", masked)]),
        audit "remove" ("token " ++ masked ++ " removed from blacklist")]
      count (·.recordRemoved)
      pure (.ok true)

/-! ## Many tokens -/

/-- Revokes tokens one after the other, and gives the number of those that worked.  The others are
logged and passed over. -/
def addEach (now : Instant) (reason : String) (ttlSeconds : Nat) : List String → Action Nat
  | [] => pure 0
  | token :: rest => do
    let added ← match ← b.add now token reason ttlSeconds with
      | .ok () => pure 1
      | .error fault => do
        report [.log (.of .debug "Skipping token in batch"
          [("token", maskToken token), ("error", fault.message)])]
        pure 0
    return added + (← addEach now reason ttlSeconds rest)

/-- The tokens of a page that have not been seen yet, after those that have. -/
def withNewTokens (seen keys : List String) : List String :=
  keys.foldl (fun seen key =>
    match Text.afterStart? b.keyPrefix key with
    | some token => if seen.contains token then seen else seen ++ [token]
    | none => seen) seen

/-- The tokens on the pages of a scan from a cursor on, after those already seen.  A failure ends
the listing with a log entry. -/
def listFrom (now : Instant) : (fuel cursor : Nat) → (seen : List String) → Action (List String)
  | 0, _, seen => pure seen
  | fuel + 1, cursor, seen => do
    let s ← get
    let (answer, gate) := s.gate.scan now b.keyPrefix cursor pageSize
    set { s with gate }
    match answer with
    | .error e =>
      report [.log (.of .warn "Blacklist listing aborted" [("error", e.message)])]
      pure seen
    | .ok (next, keys) =>
      let seen := b.withNewTokens seen keys
      if next = 0 then pure seen else listFrom now fuel next seen

/-- The tokens whose keys are live, each once.  Every page but the last moves past at least one key,
so the number of keys bounds the number of pages. -/
def listAll (now : Instant) : Action (List String) := do
  b.listFrom now ((← get).gate.store.entries.size + 1) 0 []

/-- Whether an entry is stale: unreadable, or lapsed under a key without a deadline. -/
def isStale (now : Instant) (date : Timestamp) (key : String) :
    Action (Except StoreError Bool) := do
  match ← callStore (·.get now key) with
  | .error e => pure (.error e)
  | .ok none => pure (.ok false)
  | .ok (some text) =>
    match BlacklistEntry.read? text with
    | none => pure (.ok true)
    | some entry =>
      if entry.isExpiredAt date then
        match ← callStore (·.ttl now key) with
        | .error e => pure (.error e)
        | .ok ttl => pure (.ok (ttl == .persistent))
      else pure (.ok false)

/-- Deletes a key if its entry is stale, and gives the number of deleted keys. -/
def sweepKey (now : Instant) (date : Timestamp) (key : String) :
    Action (Except StoreError Nat) := do
  match ← isStale now date key with
  | .error e => pure (.error e)
  | .ok false => pure (.ok 0)
  | .ok true =>
    match ← callStore (·.delete now key) with
    | .error e => pure (.error e)
    | .ok false => pure (.ok 0)
    | .ok true =>
      count (·.recordRemoved)
      pure (.ok 1)

/-- Sweeps the keys of a page, up to the first failure. -/
def sweepKeys (now : Instant) (date : Timestamp) : List String → Action (Except StoreError Nat)
  | [] => pure (.ok 0)
  | key :: rest => do
    match ← sweepKey now date key with
    | .error e => pure (.error e)
    | .ok n =>
      match ← sweepKeys now date rest with
      | .error e => pure (.error e)
      | .ok m => pure (.ok (n + m))

/-- Sweeps the pages of a scan from a cursor on. -/
def sweepFrom (now : Instant) (date : Timestamp) :
    (fuel cursor : Nat) → Action (Except StoreError Nat)
  | 0, _ => pure (.ok 0)
  | fuel + 1, cursor => do
    let s ← get
    let (answer, gate) := s.gate.scan now b.keyPrefix cursor pageSize
    set { s with gate }
    match answer with
    | .error e => pure (.error e)
    | .ok (next, keys) =>
      match ← sweepKeys now date keys with
      | .error e => pure (.error e)
      | .ok n =>
        if next = 0 then pure (.ok n)
        else
          match ← sweepFrom now date fuel next with
          | .error e => pure (.error e)
          | .ok m => pure (.ok (n + m))

/-- Deletes the stale entries, and gives their number.  Entries under a key with a deadline are left
to the store. -/
def sweep (now : Instant) : Action (Except StoreError Nat) := do
  let date ← Timestamp.ofClock now
  match ← b.sweepFrom now date ((← get).gate.store.entries.size + 1) 0 with
  | .error e => pure (.error e)
  | .ok swept =>
    if 0 < swept then
      report [
        .log (.of .info "Swept stale blacklist entries" [("swept", Nat.repr swept)]),
        audit "sweep" ("removed " ++ Nat.repr swept ++ " stale blacklist entries")]
    else report [.log (.of .debug "No stale blacklist entries" [])]
    pure (.ok swept)

end Blacklist
end Bulwark
