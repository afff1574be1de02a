import Bulwark.Revocation.Blacklist

/-!
# Calls of a blacklist

The calls of a blacklist as data, so that a run is a list of them.  `Blacklist.perform` makes one.
-/

namespace Bulwark.Blacklist

/-- A call of a blacklist. -/
inductive Call where
  | add (token reason : String) (ttlSeconds : Nat)
  | addOrLog (token reason : String) (ttlSeconds : Nat)
  | addEach (tokens : List String) (reason : String) (ttlSeconds : Nat)
  | isRevoked (token : String)
  | info (token : String)
  | remove (token : String)
  | listAll
  | sweep
  deriving DecidableEq, Repr

/-- The answer to a call. -/
inductive Reply where
  | added (answer : Except Fault Unit)
  /-- Whether a token is revoked, or has been revoked now. -/
  | revoked (b : Bool)
  /-- How many tokens have been revoked. -/
  | addedEach (n : Nat)
  | info (answer : Except Fault (Option RevocationInfo))
  /-- Whether there was a revocation to lift. -/
  | removed (answer : Except StoreError Bool)
  | tokens (ts : List String)
  /-- How many entries have been deleted. -/
  | swept (answer : Except StoreError Nat)

/-- Makes a call. -/
def perform (b : Blacklist) (now : Instant) : Call → Action Reply
  | .add token reason ttl => return .added (← b.add now token reason ttl)
  | .addOrLog token reason ttl => return .revoked (← b.addOrLog now token reason ttl)
  | .addEach tokens reason ttl => return .addedEach (← b.addEach now reason ttl tokens)
  | .isRevoked token => return .revoked (← b.isRevoked now token)
  | .info token => return .info (← b.info now token)
  | .remove token => return .removed (← b.remove now token)
  | .listAll => return .tokens (← b.listAll now)
  | .sweep => return .swept (← b.sweep now)

end Bulwark.Blacklist
