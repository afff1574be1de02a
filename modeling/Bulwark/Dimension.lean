import Bulwark.Quantity

/-!
# Dimensions of admission

A request is limited along four dimensions: all requests together, its client address, its user,
and the endpoint it asks for.  A dimension is a kind and a key within the kind; each has a bucket of
its own, stored under a key that `Dimension.storageKey` makes.  The parameters of the buckets of one
kind are an `Allowance`.
-/

namespace Bulwark

/-- The axis along which a request is limited, in the order in which they are checked. -/
inductive DimensionKind where
  | global
  | ip
  | user
  | endpoint
  deriving DecidableEq, Repr, Inhabited

namespace DimensionKind

/-- Every kind, in the order of checking. -/
def all : List DimensionKind := [.global, .ip, .user, .endpoint]

/-- The name in store keys, configuration and logs. -/
def name : DimensionKind → String
  | .global => "global"
  | .ip => "ip"
  | .user => "user"
  | .endpoint => "endpoint"

/-- The kind of a name. -/
def ofName? (s : String) : Option DimensionKind := all.find? (·.name == s)

end DimensionKind

/-- One value for each kind. -/
structure PerKind (β : Type) where
  global : β
  ip : β
  user : β
  endpoint : β
  deriving DecidableEq, Repr, Inhabited

namespace PerKind

variable {β : Type}

/-- The same value for every kind. -/
def replicate (v : β) : PerKind β := ⟨v, v, v, v⟩

/-- The value of a kind. -/
def get (p : PerKind β) : DimensionKind → β
  | .global => p.global
  | .ip => p.ip
  | .user => p.user
  | .endpoint => p.endpoint

/-- Replaces the value of a kind. -/
def set (p : PerKind β) (k : DimensionKind) (v : β) : PerKind β :=
  match k with
  | .global => { p with global := v }
  | .ip => { p with ip := v }
  | .user => { p with user := v }
  | .endpoint => { p with endpoint := v }

@[simp]
theorem get_replicate (v : β) (k : DimensionKind) : (replicate v).get k = v := by
  cases k <;> rfl

theorem get_set (p : PerKind β) (k j : DimensionKind) (v : β) :
    (p.set k v).get j = if j = k then v else p.get j := by
  cases k <;> cases j <;> rfl

end PerKind

/-- The identity of one bucket. -/
structure Dimension where
  kind : DimensionKind
  key : String
  deriving DecidableEq, Repr

namespace Dimension

/-- The one dimension that all requests share. -/
def global : Dimension := ⟨.global, "global"⟩

/-- How logs name a dimension. -/
def render (d : Dimension) : String := d.kind.name ++ ":" ++ d.key

/-- The store key of the bucket. -/
def storageKey (keyPrefix : String) (d : Dimension) : String := keyPrefix ++ d.render

end Dimension

/-- The parameters of the buckets of one kind.  Useless values are accepted here; whoever checks
admission has to look at `Allowance.isValid` first. -/
structure Allowance (α : Type) where
  /-- Whether this kind takes part in admission checks at all. -/
  enabled : Bool
  capacity : α
  /-- Tokens per interval. -/
  rate : α
  /-- Seconds. -/
  interval : α
  deriving DecidableEq, Repr

namespace Allowance

variable {α : Type} [Quantity α]

open Quantity

/-- Parameters that are in force. -/
def of (capacity rate interval : α) : Allowance α := ⟨true, capacity, rate, interval⟩

/-- A hundred requests per minute. -/
def standard : Allowance α := of (ofNat 100) (ofNat 100) (ofNat 60)

/-- A kind that is not limited. -/
def disabled : Allowance α := { (standard : Allowance α) with enabled := false }

/-- Whether three numbers describe a bucket that can be used. -/
def areValid (capacity rate interval : α) : Bool :=
  isFinite capacity && isFinite rate && isFinite interval
    && decide (zero < capacity) && decide (zero < rate) && decide (zero < interval)

/-- Whether the parameters describe a bucket that can be used. -/
def isValid (a : Allowance α) : Bool := areValid a.capacity a.rate a.interval

/-- The longest time for which an idle bucket is kept: a year, in seconds. -/
def maxTtl : Nat := 365 * 24 * 60 * 60

/-- How long an idle bucket is kept, in seconds: two intervals, at least one second and at most
`maxTtl`. -/
def ttlOf (interval : α) : Nat := min maxTtl (max 1 (wholePart (ceil (interval * ofNat 2))))

/-- How long an idle bucket with these parameters is kept, in seconds. -/
def ttlSeconds (a : Allowance α) : Nat := ttlOf a.interval

end Allowance
end Bulwark
