import Bulwark.Limiter.Basic

/-!
# Calls of a limiter

The calls of a limiter as data, so that a run is a list of them.  `Limiter.perform` makes one.
-/

namespace Bulwark.Limiter

/-- A call of a limiter. -/
inductive Call (α : Type) where
  | check (d : Dimension)
  | checkWith (d : Dimension) (capacity rate interval cost : α)
  | checkAll (ip : String) (user : Option String) (endpoint : String)
  | resetBucket (d : Dimension)
  | bucketState (d : Dimension)
  | sharedStatistics (kind : DimensionKind)
  deriving Repr

/-- The answer to a call. -/
inductive Reply (α : Type) where
  /-- Whether a request is let in. -/
  | decided (allowed : Bool)
  /-- Whether there was a bucket to delete. -/
  | reset (answer : Except StoreError Bool)
  | bucket (answer : Except StoreError (Option (Bucket α)))
  | statistics (answer : Except StoreError AdmissionCount)

/-- Makes a call. -/
def perform {α : Type} [Quantity α] [QuantityText α] (settings : LimiterSettings α)
    (now : Instant) : Call α → Action (Reply α)
  | .check d => return .decided (← check settings now d)
  | .checkWith d capacity rate interval cost =>
    return .decided (← checkWith settings now d capacity rate interval cost)
  | .checkAll ip user endpoint => return .decided (← checkAll settings now ip user endpoint)
  | .resetBucket d => return .reset (← resetBucket settings.keyPrefix now d)
  | .bucketState d => return .bucket (← bucketState settings.keyPrefix now d)
  | .sharedStatistics kind => return .statistics (← sharedStatistics settings.keyPrefix now kind)

end Bulwark.Limiter
