import Bulwark.Revocation.Blacklist

/-!
# Walks page by page

A listing and a sweep ask for a page of the keys under the prefix, deal with it, and go on with the
next page.  `scanPage` is the store call of such a step, and `listFrom_succ` and `sweepFrom_succ`
say what follows it.
-/

namespace Bulwark.Blacklist

variable (b : Blacklist) (now : Instant) (fuel cursor : Nat)

/-- One page of a scan of the keys under the prefix. -/
def scanPage : Action (Except StoreError (Nat × List String)) := fun s =>
  let (answer, gate) := s.gate.scan now b.keyPrefix cursor pageSize
  .ok (answer, { s with gate })

/-- What a listing does with a page. -/
def listPage (seen : List String) : Except StoreError (Nat × List String) → Action (List String)
  | .error e => do
    report [.log (.of .warn "Blacklist listing aborted" [("error", e.message)])]
    pure seen
  | .ok (next, keys) =>
    let seen := b.withNewTokens seen keys
    if next = 0 then pure seen else b.listFrom now fuel next seen

theorem listFrom_succ (seen : List String) :
    b.listFrom now (fuel + 1) cursor seen =
      b.scanPage now cursor >>= b.listPage now fuel seen := rfl

/-- What a sweep does with a page. -/
def sweepPage (date : Timestamp) :
    Except StoreError (Nat × List String) → Action (Except StoreError Nat)
  | .error e => pure (.error e)
  | .ok (next, keys) => do
    match ← sweepKeys now date keys with
    | .error e => pure (.error e)
    | .ok n =>
      if next = 0 then pure (.ok n)
      else
        match ← b.sweepFrom now date fuel next with
        | .error e => pure (.error e)
        | .ok m => pure (.ok (n + m))

theorem sweepFrom_succ (date : Timestamp) :
    b.sweepFrom now date (fuel + 1) cursor = b.scanPage now cursor >>= b.sweepPage now fuel date :=
  rfl

end Bulwark.Blacklist
