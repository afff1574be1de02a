import Mathlib.Data.List.DropRight
import Mathlib.Data.UInt
import Bulwark.Statistics

/-!
# What counters count

An `Occurrence` is something that a layer counts, or that makes it count anew.  Which of them move a
number of the counters, and which set it back, is said by its `Column`.  `Counters.Follows` is the
invariant of every call: each column has moved by the occurrences of the call, and by nothing else.

From counters that start at zero it follows that they account for what has happened since the last
reset (`accounts_of_follows`).
-/

namespace Bulwark

/-- Something that a layer counts, or a reset. -/
inductive Occurrence where
  /-- A check with explicit parameters has answered, by a decision of the store or without one. -/
  | answered (kind : DimensionKind) (allowed decided : Bool)
  /-- A guarded operation or stream has ended, or a fallback has been called for directly. -/
  | ended
  /-- A token has been revoked. -/
  | added
  /-- A key has been deleted, by a lifting or a sweep. -/
  | removed
  /-- A lookup of a token has answered, by what the store says or without it. -/
  | lookedUp (answered revoked : Bool)
  /-- The counts of finished operations have been set to zero. -/
  | recoveryReset
  /-- All counts have been set to zero. -/
  | reset
  deriving DecidableEq

namespace Occurrence

/-- An answer of a check on a kind. -/
def isCheck (kind : DimensionKind) : Occurrence → Bool
  | .answered k _ _ => k == kind
  | _ => false

/-- Such an answer with this result. -/
def isAnswer (kind : DimensionKind) (allowed : Bool) : Occurrence → Bool
  | .answered k a _ => k == kind && a == allowed
  | _ => false

/-- A request let in without a decision of the store. -/
def isFailOpen (kind : DimensionKind) : Occurrence → Bool
  | .answered k a decided => k == kind && a && !decided
  | _ => false

/-- A lookup of a token. -/
def isLookup : Occurrence → Bool
  | .lookedUp _ _ => true
  | _ => false

/-- A lookup that the store has answered, or has not. -/
def isLookupWith (answered : Bool) : Occurrence → Bool
  | .lookedUp a _ => a == answered
  | _ => false

end Occurrence

/-! ## Columns -/

/-- The checks that have let a request in, or have not. -/
def AdmissionCount.answers (c : AdmissionCount) (allowed : Bool) : UInt64 :=
  if allowed then c.allowed else c.blocked

/-- How many operations have ended, by the four counts of endings. -/
def RecoveryCount.endings (c : RecoveryCount) : UInt64 :=
  c.successes + c.failures + c.degradations + c.circuitTrips

/-- A number that counters hold. -/
inductive Column where
  | checks (kind : DimensionKind)
  | answers (kind : DimensionKind) (allowed : Bool)
  | failOpen (kind : DimensionKind)
  | endings
  | added
  | removed
  | lookups
  | lookupErrors
  | hits

open Occurrence

namespace Column

/-- The number in the column. -/
def read (c : Counters) : Column → UInt64
  | .checks kind => (c.admission.get kind).total
  | .answers kind allowed => (c.admission.get kind).answers allowed
  | .failOpen kind => (c.admission.get kind).failOpen
  | .endings => c.recovery.endings
  | .added => c.revocation.added
  | .removed => c.revocation.removed
  | .lookups => c.revocation.lookups
  | .lookupErrors => c.revocation.lookupErrors
  | .hits => c.revocation.hits

/-- What is counted in the column. -/
def counts : Column → Occurrence → Bool
  | .checks kind => isCheck kind
  | .answers kind allowed => isAnswer kind allowed
  | .failOpen kind => isFailOpen kind
  | .endings => (· == .ended)
  | .added => (· == .added)
  | .removed => (· == .removed)
  | .lookups => isLookupWith true
  | .lookupErrors => isLookupWith false
  | .hits => (· == .lookedUp true true)

/-- What sets the column to zero. -/
def restarts : Column → Occurrence → Bool
  | .endings => fun o => o == .recoveryReset || o == .reset
  | _ => (· == .reset)

/-- The number after one more occurrence. -/
def step (col : Column) (n : UInt64) (o : Occurrence) : UInt64 :=
  if col.restarts o then 0 else if col.counts o then n + 1 else n

/-- A column that starts at zero holds the number of what it counts since the last restart. -/
theorem foldl_step (col : Column) (os : List Occurrence) :
    os.foldl col.step 0 =
      UInt64.ofNat ((os.rtakeWhile fun o => !col.restarts o).countP col.counts) := by
  induction os using List.reverseRecOn with
  | nil => rfl
  | append_singleton os o ih =>
    rw [List.foldl_concat, ih, List.rtakeWhile_concat, step]
    cases col.restarts o with
    | true => rfl
    | false =>
      rw [if_neg Bool.false_ne_true, if_pos Bool.not_false, List.countP_append,
        List.countP_singleton, UInt64.ofNat_add]
      cases col.counts o with
      | true => rfl
      | false => exact (add_zero _).symm

end Column

/-! ## Counters that follow -/

/-- Every column has moved by the occurrences, and by nothing else. -/
def Counters.Follows (c : Counters) (os : List Occurrence) (c' : Counters) : Prop :=
  ∀ col : Column, col.read c' = os.foldl col.step (col.read c)

namespace Counters.Follows

variable {c c' c'' : Counters} {os os' : List Occurrence}

theorem nothing (c : Counters) : c.Follows [] c := fun _ => rfl

theorem trans (h : c.Follows os c') (h' : c'.Follows os' c'') : c.Follows (os ++ os') c'' := by
  intro col
  rw [h' col, h col, List.foldl_append]

theorem reset (c : Counters) : c.Follows [.reset] .zero := by
  intro col
  cases col with
  | answers kind allowed => cases kind <;> cases allowed <;> rfl
  | checks kind => cases kind <;> rfl
  | failOpen kind => cases kind <;> rfl
  | _ => rfl

theorem recoveryReset (c : Counters) : c.Follows [.recoveryReset] { c with recovery := .zero } := by
  intro col
  cases col <;> rfl

end Counters.Follows

/-- Counters of which only a part has moved follow the occurrences, whatever the rest of them is. -/
def FollowsIn {γ : Type} (place : Counters → γ → Counters) (x : γ) (os : List Occurrence) (y : γ) :
    Prop :=
  ∀ c, (place c x).Follows os (place c y)

namespace FollowsIn

variable {γ : Type} {place : Counters → γ → Counters} {x y z : γ} {os os' : List Occurrence}

theorem nothing (h : y = x) : FollowsIn place x [] y := by
  intro c
  rw [h]
  exact .nothing _

theorem trans (h : FollowsIn place x os y) (h' : FollowsIn place y os' z) :
    FollowsIn place x (os ++ os') z :=
  fun c => (h c).trans (h' c)

end FollowsIn

/-! ## Accounts -/

/-- What has happened since all counts were last set to zero. -/
def sinceReset (os : List Occurrence) : List Occurrence := os.rtakeWhile (· != .reset)

/-- What has happened since the counts of finished operations were last set to zero. -/
def sinceRecoveryReset (os : List Occurrence) : List Occurrence :=
  os.rtakeWhile fun o => !(o == .recoveryReset || o == .reset)

/-- How many of the occurrences are such, in 64 bits. -/
def tally (os : List Occurrence) (p : Occurrence → Bool) : UInt64 := UInt64.ofNat (os.countP p)

/-- The counters account for what has happened since the last reset. -/
structure Counters.Accounts (c : Counters) (os : List Occurrence) : Prop where
  allowed : ∀ kind, (c.admission.get kind).allowed = tally (sinceReset os) (isAnswer kind true)
  blocked : ∀ kind, (c.admission.get kind).blocked = tally (sinceReset os) (isAnswer kind false)
  total : ∀ kind, (c.admission.get kind).total =
    (c.admission.get kind).allowed + (c.admission.get kind).blocked
  failOpen : ∀ kind, (c.admission.get kind).failOpen = tally (sinceReset os) (isFailOpen kind)
  endings : c.recovery.successes + c.recovery.failures + c.recovery.degradations
    + c.recovery.circuitTrips = tally (sinceRecoveryReset os) (· == .ended)
  added : c.revocation.added = tally (sinceReset os) (· == .added)
  removed : c.revocation.removed = tally (sinceReset os) (· == .removed)
  lookups : c.revocation.lookups + c.revocation.lookupErrors = tally (sinceReset os) isLookup
  hits : c.revocation.hits = tally (sinceReset os) (· == .lookedUp true true)

/-- What is counted in one of two columns is counted in their sum. -/
theorem tally_add {p q r : Occurrence → Bool} (os : List Occurrence)
    (h : ∀ o, (p o).toNat + (q o).toNat = (r o).toNat) :
    tally os p + tally os q = tally os r := by
  have hcount : os.countP p + os.countP q = os.countP r := by
    induction os with
    | nil => rfl
    | cons o os ih =>
      have htoNat : ∀ b : Bool, b.toNat = if b then 1 else 0 := by decide
      have ho := h o
      rw [htoNat, htoNat, htoNat] at ho
      rw [List.countP_cons, List.countP_cons, List.countP_cons]
      omega
  rw [tally, tally, ← UInt64.ofNat_add, hcount, tally]

/-- Counters that have followed from zero account for what they have followed. -/
theorem accounts_of_follows {c : Counters} {os : List Occurrence}
    (h : Counters.zero.Follows os c) : c.Accounts os := by
  have hcolumn : ∀ col : Column, col.read .zero = 0 →
      col.read c = UInt64.ofNat ((os.rtakeWhile fun o => !col.restarts o).countP col.counts) := by
    intro col hzero
    rw [h col, hzero, Column.foldl_step]
  have hchecks : ∀ kind, (c.admission.get kind).total = tally (sinceReset os) (isCheck kind) :=
    fun kind => hcolumn (.checks kind) (by cases kind <;> rfl)
  have hallowed : ∀ kind,
      (c.admission.get kind).allowed = tally (sinceReset os) (isAnswer kind true) :=
    fun kind => hcolumn (.answers kind true) (by cases kind <;> rfl)
  have hblocked : ∀ kind,
      (c.admission.get kind).blocked = tally (sinceReset os) (isAnswer kind false) :=
    fun kind => hcolumn (.answers kind false) (by cases kind <;> rfl)
  have hanswered : c.revocation.lookups = tally (sinceReset os) (isLookupWith true) :=
    hcolumn .lookups rfl
  have hunanswered : c.revocation.lookupErrors = tally (sinceReset os) (isLookupWith false) :=
    hcolumn .lookupErrors rfl
  refine {
    allowed := hallowed
    blocked := hblocked
    total := fun kind => ?_
    failOpen := fun kind => hcolumn (.failOpen kind) (by cases kind <;> rfl)
    endings := hcolumn .endings rfl
    added := hcolumn .added rfl
    removed := hcolumn .removed rfl
    lookups := ?_
    hits := hcolumn .hits rfl }
  · rw [hchecks, hallowed, hblocked]
    refine (tally_add (sinceReset os) fun o => ?_).symm
    cases o with
    | answered k allowed decided =>
      cases h : k == kind <;> cases allowed <;> simp [isAnswer, isCheck, h]
    | _ => rfl
  · rw [hanswered, hunanswered]
    refine tally_add (sinceReset os) fun o => ?_
    cases o with
    | lookedUp answered revoked => cases answered <;> rfl
    | _ => rfl

end Bulwark
