import Bulwark.Bucket
import Bulwark.Fault
import Bulwark.Table
import Bulwark.Text.Affix
import Bulwark.Text.Digits

/-!
# The shared store

A store maps keys to texts or to hashes of text fields, each with an optional deadline.  A key is
live before its deadline and as good as absent from then on; an expired entry stays in the table
until something touches it or `purge` runs.  Every function takes the clock's reading as an argument
and gives its answer together with the store after it.

Two rules carry most of the behaviour.  A text answers only text operations and a hash only hash
operations; the wrong kind is an error, and an error changes nothing.  A hash operation that writes
starts over with no fields and no deadline when its key is missing or expired, and leaves the
deadline of a live hash alone (`Store.writable`).
-/

namespace Bulwark

/-- What a key holds. -/
inductive StoredValue where
  | text (s : String)
  | hash (fields : Table String)

/-- What a key holds, and until when. -/
structure StoredEntry where
  value : StoredValue
  /-- The moment from which on the key counts as absent. -/
  deadline : Option Instant

/-- Whether the deadline has not come yet. -/
def StoredEntry.isLive (e : StoredEntry) (now : Instant) : Bool :=
  match e.deadline with
  | none => true
  | some limit => now < limit

/-- The remaining lifetime of a key. -/
inductive KeyTtl where
  | missing
  /-- The key has no deadline. -/
  | persistent
  | expires (d : Duration)
  deriving DecidableEq, Repr

/-- A store with expiring keys. -/
structure Store where
  entries : Table StoredEntry

namespace Store

/-- No keys. -/
def empty : Store := ⟨.empty⟩

instance : Inhabited Store := ⟨empty⟩

/-- The answer of an operation and the store after it. -/
abbrev Result (β : Type) := Except StoreError β × Store

/-- An operation on a key that holds the other kind of value. -/
def wrongType (key : String) : StoreError :=
  .protocol ("WRONGTYPE operation against key '" ++ key ++ "' holding the wrong kind of value")

/-- What a live key holds. -/
def live? (s : Store) (now : Instant) (key : String) : Option StoredValue :=
  ((s.entries.get? key).filter (·.isLive now)).map (·.value)

/-- Drops a key that has expired. -/
def dropExpired (s : Store) (now : Instant) (key : String) : Store :=
  match s.entries.get? key with
  | some e => if e.isLive now then s else ⟨s.entries.erase key⟩
  | none => s

/-- Puts an entry under a key, whatever was there. -/
def put (s : Store) (key : String) (value : StoredValue) (deadline : Option Instant) : Store :=
  ⟨s.entries.insert key ⟨value, deadline⟩⟩

/-! ## Texts -/

/-- Reads a text. -/
def get (s : Store) (now : Instant) (key : String) : Result (Option String) :=
  match s.live? now key with
  | none => (.ok none, s.dropExpired now key)
  | some (.text t) => (.ok (some t), s)
  | some (.hash _) => (.error (wrongType key), s)

/-- Writes a text over whatever was there.  A lifetime whose end no clock can show is no
lifetime. -/
def set (s : Store) (now : Instant) (key value : String) (ttl : Option Duration) : Result Unit :=
  (.ok (), s.put key (.text value) (ttl.bind now.later?))

/-! ## Keys -/

/-- Deletes a key, and tells whether it was live. -/
def delete (s : Store) (now : Instant) (key : String) : Result Bool :=
  (.ok (s.live? now key).isSome, ⟨s.entries.erase key⟩)

/-- Whether a key is live. -/
def contains (s : Store) (now : Instant) (key : String) : Result Bool :=
  (.ok (s.live? now key).isSome, s.dropExpired now key)

/-- Gives a live key a new lifetime, and tells whether there was one. -/
def expire (s : Store) (now : Instant) (key : String) (ttl : Duration) : Result Bool :=
  match s.live? now key with
  | some value => (.ok true, s.put key value (now.later? ttl))
  | none => (.ok false, s)

/-- The remaining lifetime of a key. -/
def ttl (s : Store) (now : Instant) (key : String) : Result KeyTtl :=
  match (s.entries.get? key).filter (·.isLive now) with
  | none => (.ok .missing, s.dropExpired now key)
  | some e => match e.deadline with
    | none => (.ok .persistent, s)
    | some limit => (.ok (.expires (now.timeTo limit)), s)

/-! ## Hashes -/

/-- Reads a field. -/
def hashGet (s : Store) (now : Instant) (key field : String) : Result (Option String) :=
  match s.live? now key with
  | none => (.ok none, s.dropExpired now key)
  | some (.hash fields) => (.ok (fields.get? field), s)
  | some (.text _) => (.error (wrongType key), s)

/-- The fields and the deadline that a write to a hash starts from. -/
def writable (s : Store) (now : Instant) (key : String) :
    Except StoreError (Table String × Option Instant) :=
  match (s.entries.get? key).filter (·.isLive now) with
  | none => .ok (.empty, none)
  | some e => match e.value with
    | .hash fields => .ok (fields, e.deadline)
    | .text _ => .error (wrongType key)

/-- Writes to the fields of a hash, all of it or nothing. -/
def hashUpdate {β : Type} (s : Store) (now : Instant) (key : String)
    (update : Table String → Except StoreError (β × Table String)) : Result β :=
  match s.writable now key with
  | .error e => (.error e, s)
  | .ok (fields, deadline) => match update fields with
    | .error e => (.error e, s)
    | .ok (answer, fields) => (.ok answer, s.put key (.hash fields) deadline)

/-- Writes a field. -/
def hashSet (s : Store) (now : Instant) (key field value : String) : Result Unit :=
  s.hashUpdate now key fun fields => .ok ((), fields.insert field value)

/-- The count in a field: zero if there is none. -/
def counter (fields : Table String) (field : String) : Except StoreError Int :=
  match fields.get? field with
  | none => .ok 0
  | some text => match Text.signed? text with
    | some n => .ok n
    | none => .error (.protocol ("hash field '" ++ field ++ "' is not an integer"))

/-- Adds to the count in a field, and gives the new count. -/
def hashIncrement (s : Store) (now : Instant) (key field : String) (delta : Int) : Result Int :=
  s.hashUpdate now key fun fields => do
    let next := Text.addSaturating (← counter fields field) delta
    .ok (next, fields.insert field (toString next))

/-- Adds to the counts in several fields at once, or in none if one is no count.  Every sum starts
from the count before the call, so of a repeated field the last increment stands. -/
def hashIncrementAll (s : Store) (now : Instant) (key : String) (increments : List (String × Int)) :
    Result Unit :=
  s.hashUpdate now key fun fields => do
    let sums ← increments.mapM fun (field, delta) => do
      .ok (field, Text.addSaturating (← counter fields field) delta)
    .ok ((), sums.foldl (fun t (field, sum) => t.insert field (toString sum)) fields)

/-- Adds to the counts in several fields one after the other, up to the first that is no count. -/
def hashIncrementEach (s : Store) (now : Instant) (key : String) :
    List (String × Int) → Result Unit
  | [] => (.ok (), s)
  | (field, delta) :: rest =>
    match s.hashIncrement now key field delta with
    | (.error e, s) => (.error e, s)
    | (.ok _, s) => s.hashIncrementEach now key rest

/-! ## Buckets -/

section Buckets

variable {α : Type} [Quantity α] [QuantityText α]

/-- The bucket in the fields of a hash.  Without readable tokens there is none; without a readable
refill time it counts from now. -/
def bucketOf? (fields : Table String) (now : α) : Option (Bucket α) :=
  let number (field : String) : Option α := (fields.get? field).bind QuantityText.read?
  (number Bucket.tokensField).map fun tokens =>
    ⟨tokens, (number Bucket.lastRefillField).getD now⟩

/-- The fields of a hash with a bucket written into them. -/
def withBucket (fields : Table String) (b : Bucket α) : Table String :=
  (fields.insert Bucket.tokensField (QuantityText.render b.tokens)).insert
    Bucket.lastRefillField (QuantityText.render b.lastRefill)

/-- Runs one admission step on the bucket under a key, and gives the key a new lifetime. -/
def takeTokens (s : Store) (now : Instant) (key : String) (r : Bucket.Request α) :
    Result (Bucket.Outcome α) :=
  match s.writable now key with
  | .error e => (.error e, s)
  | .ok (fields, _) =>
    let (bucket, outcome) := r.apply (bucketOf? fields r.now)
    (.ok outcome,
      s.put key (.hash (withBucket fields bucket)) (now.later? (.ofSeconds r.ttlSeconds)))

end Buckets

/-! ## The whole store -/

/-- The number of live keys. -/
def size (s : Store) (now : Instant) : Nat := (s.entries.filter fun _ e => e.isLive now).size

/-- Drops every expired key, and gives their number. -/
def purge (s : Store) (now : Instant) : Nat × Store :=
  let kept := s.entries.filter fun _ e => e.isLive now
  (s.entries.size - kept.size, ⟨kept⟩)

/-! ## Scans -/

/-- A page of a scan: where the next page starts, zero at the end, and the keys of this one.  Keys
at one position are never parted. -/
def page (count : Nat) (keys : List (Nat × String)) : Nat × List String :=
  let first := keys.take (max count 1)
  let rest := keys.drop (max count 1)
  match first.getLast? with
  | none => (0, [])
  | some last =>
    let tied := rest.takeWhile (·.1 = last.1)
    let next := (rest.dropWhile (·.1 = last.1)).head?
    ((next.map (·.1)).getD 0, (first ++ tied).map (·.2))

/-- The order of a scan: by position, and by key at one position. -/
def scanLe (a b : Nat × String) : Bool := a.1 < b.1 || (a.1 = b.1 && a.2 ≤ b.2)

/-- One page of the live keys that start with `keyPrefix`, from a cursor on.  Keys are walked in the
order of their positions and the cursor is a position, so keys that come or go between two pages do
not move the others. -/
def scan (s : Store) (position : String → Nat) (now : Instant) (keyPrefix : String)
    (cursor count : Nat) : Result (Nat × List String) :=
  let live := s.entries.entries.filter fun (key, e) =>
    Text.startsWith keyPrefix key && e.isLive now
  let keys := (live.map fun (key, _) => (position key, key)).filter (cursor ≤ ·.1)
  (.ok (page count (keys.mergeSort scanLe)), s)

end Store
end Bulwark
