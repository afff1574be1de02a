import Bulwark.Store.Basic

/-!
# Store commands

The operations of a store as data, so that a run of a store is a list of commands.  `Store.perform`
answers one command, `Store.walk` is a whole scan from the first page to the last.
-/

namespace Bulwark.Store

/-- An operation of a store. -/
inductive Command (α : Type) where
  | get (key : String)
  | set (key value : String) (ttl : Option Duration)
  | delete (key : String)
  | contains (key : String)
  | hashGet (key field : String)
  | hashSet (key field value : String)
  | hashIncrement (key field : String) (delta : Int)
  | hashIncrementAll (key : String) (increments : List (String × Int))
  | hashIncrementEach (key : String) (increments : List (String × Int))
  | expire (key : String) (ttl : Duration)
  | ttl (key : String)
  | scan (keyPrefix : String) (cursor count : Nat)
  | takeTokens (key : String) (request : Bucket.Request α)
  | size
  | purge
  | clear
  deriving Repr

/-- The answer to a command. -/
inductive Answer (α : Type) where
  | done
  | text (t : Option String)
  | flag (b : Bool)
  | sum (n : Int)
  | count (n : Nat)
  | lifetime (t : KeyTtl)
  | page (next : Nat) (keys : List String)
  | outcome (o : Bucket.Outcome α)
  deriving DecidableEq, Repr

variable {α : Type} [Quantity α] [QuantityText α]

/-- An answer of another shape, beside the same store. -/
def Result.map {β γ : Type} (f : β → γ) (r : Result β) : Result γ := (r.1.map f, r.2)

/-- Answers a command. -/
def perform (position : String → Nat) (now : Instant) (s : Store) :
    Command α → Result (Answer α)
  | .get key => Result.map .text (s.get now key)
  | .set key value ttl => Result.map (fun _ => .done) (s.set now key value ttl)
  | .delete key => Result.map .flag (s.delete now key)
  | .contains key => Result.map .flag (s.contains now key)
  | .hashGet key field => Result.map .text (s.hashGet now key field)
  | .hashSet key field value => Result.map (fun _ => .done) (s.hashSet now key field value)
  | .hashIncrement key field delta => Result.map .sum (s.hashIncrement now key field delta)
  | .hashIncrementAll key increments =>
    Result.map (fun _ => .done) (s.hashIncrementAll now key increments)
  | .hashIncrementEach key increments =>
    Result.map (fun _ => .done) (s.hashIncrementEach now key increments)
  | .expire key ttl => Result.map .flag (s.expire now key ttl)
  | .ttl key => Result.map .lifetime (s.ttl now key)
  | .scan keyPrefix cursor count =>
    Result.map (fun (next, keys) => .page next keys) (s.scan position now keyPrefix cursor count)
  | .takeTokens key request => Result.map .outcome (s.takeTokens now key request)
  | .size => (.ok (.count (s.size now)), s)
  | .purge => let (dropped, after) := s.purge now; (.ok (.count dropped), after)
  | .clear => (.ok .done, empty)

/-- Deletes keys one after the other. -/
def deleteAll (now : Instant) (s : Store) (keys : List String) : Store :=
  keys.foldl (fun s key => (s.delete now key).2) s

/-- The pages of a scan from a cursor on, each deleted before the next is asked for if `deleting`.
Every page but the last moves past at least one key, so `fuel` need only exceed their number. -/
def walkFrom (position : String → Nat) (now : Instant) (keyPrefix : String) (count : Nat)
    (deleting : Bool) : (fuel cursor : Nat) → Store → List (List String) × Store
  | 0, _, s => ([], s)
  | fuel + 1, cursor, s =>
    match s.scan position now keyPrefix cursor count with
    | (.error _, s) => ([], s)
    | (.ok (next, keys), s) =>
      let s := if deleting then deleteAll now s keys else s
      if next = 0 then ([keys], s)
      else
        let (pages, after) := walkFrom position now keyPrefix count deleting fuel next s
        (keys :: pages, after)

/-- The pages of a whole scan. -/
def walk (position : String → Nat) (now : Instant) (keyPrefix : String) (count : Nat)
    (deleting : Bool) (s : Store) : List (List String) × Store :=
  walkFrom position now keyPrefix count deleting (s.entries.size + 1) 0 s

end Bulwark.Store
