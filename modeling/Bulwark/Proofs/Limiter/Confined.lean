import Bulwark.Limiter.Call
import Bulwark.Proofs.Store.Border

/-!
# Limiters keep to their keys

Every call of a limiter and every step of a drain works on keys that start with its prefix: buckets
and shared statistics.  So it goes by what the store holds there, and changes nothing else in it.
-/

namespace Bulwark

/-- Bucket keys start with the prefix. -/
theorem Dimension.startsWith_storageKey (keyPrefix : String) (d : Dimension) :
    Text.startsWith keyPrefix (d.storageKey keyPrefix) = true := Text.startsWith_append _ _

/-- So do the keys of shared statistics. -/
theorem startsWith_statisticsKey (keyPrefix : String) (kind : DimensionKind) :
    Text.startsWith keyPrefix (statisticsKey keyPrefix kind) = true := by
  unfold statisticsKey
  rw [String.append_assoc]
  exact Text.startsWith_append _ _

namespace Limiter

/-- The gate in a session of a limiter. -/
def gated : Gated Session := ⟨Session.gate, fun s gate => { s with gate }, fun _ _ => rfl,
  fun _ _ _ => rfl⟩

/-- Limiters go by the keys that are theirs. -/
def border (own : String → Prop) : Border Session := gated.border own .any

/-- A call of a limiter, which never halts, as one that could. -/
def lift {γ : Type} (x : Action γ) : StateT Session (Except Halt) γ := fun s => .ok (x s)

section Rules

variable {γ δ : Type} {own : String → Prop} {x : Action γ}

theorem confined_bind {f : γ → Action δ} (hx : Confined (border own) (lift x))
    (hf : ∀ a, Confined (border own) (lift (f a))) : Confined (border own) (lift (x >>= f)) :=
  Confined.bind hx hf

theorem confined_pure (a : γ) : Confined (border own) (lift (pure a)) := Confined.pure a

theorem confined_callStore {β : Type} {key : String} {operation : Store → Store.Result β}
    (hacts : Store.ActsOn key operation) (hown : own key) :
    Confined (border own) (lift (callStore operation)) :=
  gated.confined_call hacts hown fun _ => trivial

theorem confined_say (entries : List LogEntry) : Confined (border own) (lift (say entries)) :=
  gated.confined_aside (fun _ _ => rfl) (fun _ _ => rfl) fun _ => rfl

theorem confined_count (kind : DimensionKind) (f : AdmissionCount → AdmissionCount) :
    Confined (border own) (lift (count kind f)) :=
  gated.confined_aside (fun _ _ => rfl) (fun _ _ => rfl) fun _ => rfl

theorem confined_askBreaker (settings : BreakerSettings) (now : Instant) :
    Confined (border own) (lift (askBreaker settings now)) :=
  gated.confined_aside (fun _ _ => rfl) (fun _ _ => rfl) fun _ => rfl

theorem confined_reportSuccess : Confined (border own) (lift reportSuccess) :=
  gated.confined_aside (fun _ _ => rfl) (fun _ _ => rfl) fun _ => rfl

theorem confined_reportFailure (settings : BreakerSettings) (now : Instant) :
    Confined (border own) (lift (reportFailure settings now)) :=
  gated.confined_aside (fun _ _ => rfl) (fun _ _ => rfl) fun _ => rfl

theorem confined_failOpen (kind : DimensionKind) : Confined (border own) (lift (failOpen kind)) :=
  confined_bind (confined_count kind _) fun _ => confined_pure true

theorem confined_record (backlogCapacity : ℕ) (kind : DimensionKind) (allowed : Bool) :
    Confined (border own) (lift (record backlogCapacity kind allowed)) :=
  confined_bind (confined_count kind _) fun _ =>
    gated.confined_aside (fun _ _ => rfl) (fun _ _ => rfl) fun _ => rfl

/-- Takes the first waiting tally, or the next batch off the queue if none waits. -/
def takeNext (size : ℕ) : Action (Option Tally) := fun s =>
  match s.backlog.pending with
  | t :: rest => (some t, { s with backlog := { s.backlog with pending := rest } })
  | [] => (none, { s with backlog := s.backlog.takeBatch size })

theorem confined_takeNext (size : ℕ) : Confined (border own) (lift (takeNext size)) := by
  refine gated.confined_aside (a := fun s => (takeNext size s).1)
    (f := fun s => (takeNext size s).2) (fun s g => ?_) (fun s g => ?_) fun s => ?_
  all_goals
    obtain ⟨gate, breaker, ⟨queue, pending, dropped⟩, admission, log⟩ := s
    cases pending with
    | nil => rfl
    | cons t rest => rfl

/-- A step of a drain takes a tally or a batch off its queue, and writes the tally. -/
theorem drainStep_eq (keyPrefix : String) (now : Instant) (size : ℕ) :
    drainStep keyPrefix now size = takeNext size >>= fun
      | some t => writeTally keyPrefix now t
      | none => pure () := by
  funext s
  show drainStep keyPrefix now size s =
    (match (takeNext size s).1 with
      | some t => writeTally keyPrefix now t
      | none => pure ()) (takeNext size s).2
  unfold drainStep takeNext
  cases s.backlog.pending with
  | nil => rfl
  | cons t rest => rfl

end Rules

section Calls

variable {α : Type} [QuantityText α] {own : String → Prop} {keyPrefix : String}
  (hown : ∀ key, Text.startsWith keyPrefix key = true → own key)
include hown

theorem confined_storageKey {β : Type} {operation : Store → Store.Result β} {d : Dimension}
    (hacts : Store.ActsOn (d.storageKey keyPrefix) operation) :
    Confined (border own) (lift (callStore operation)) :=
  confined_callStore hacts (hown _ (d.startsWith_storageKey keyPrefix))

theorem confined_statisticsKey {β : Type} {operation : Store → Store.Result β}
    {kind : DimensionKind} (hacts : Store.ActsOn (statisticsKey keyPrefix kind) operation) :
    Confined (border own) (lift (callStore operation)) :=
  confined_callStore hacts (hown _ (startsWith_statisticsKey keyPrefix kind))

theorem resetBucket_confined (now : Instant) (d : Dimension) :
    Confined (border own) (lift (resetBucket keyPrefix now d)) :=
  confined_storageKey hown (Store.delete_actsOn now _)

theorem bucketState_confined (now : Instant) (d : Dimension) :
    Confined (border own) (lift (bucketState (α := α) keyPrefix now d)) := by
  have hread : ∀ field, Confined (border own)
      (lift (callStore (·.hashGet now (d.storageKey keyPrefix) field))) :=
    fun field => confined_storageKey hown (Store.hashGet_actsOn now _ field)
  refine confined_bind (hread Bucket.tokensField) fun answer => ?_
  cases answer with
  | error e => exact confined_pure _
  | ok tokens =>
    refine confined_bind (hread Bucket.lastRefillField) fun answer => ?_
    cases answer with
    | error e => exact confined_pure _
    | ok lastRefill => exact confined_pure _

theorem readCount_confined (now : Instant) (kind : DimensionKind) (field : String) :
    Confined (border own) (lift (readCount now (statisticsKey keyPrefix kind) field)) := by
  refine confined_bind (confined_statisticsKey hown (Store.hashGet_actsOn now _ field))
    fun answer => ?_
  cases answer with
  | error e => exact confined_pure _
  | ok text => exact confined_pure _

theorem sharedStatistics_confined (now : Instant) (kind : DimensionKind) :
    Confined (border own) (lift (sharedStatistics keyPrefix now kind)) := by
  refine confined_bind (readCount_confined hown now kind "total") fun answer => ?_
  cases answer with
  | error e => exact confined_pure _
  | ok total =>
    refine confined_bind (readCount_confined hown now kind "allowed") fun answer => ?_
    cases answer with
    | error e => exact confined_pure _
    | ok allowed =>
      refine confined_bind (readCount_confined hown now kind "blocked") fun answer => ?_
      cases answer with
      | error e => exact confined_pure _
      | ok blocked => exact confined_pure _

theorem writeTally_confined (now : Instant) (t : Tally) :
    Confined (border own) (lift (writeTally keyPrefix now t)) := by
  refine confined_bind (confined_statisticsKey hown (Store.hashUpdate_actsOn now _ _))
    fun answer => ?_
  cases answer with
  | error e => exact confined_say _
  | ok _ => exact confined_pure _

theorem drainStep_confined (now : Instant) (size : ℕ) :
    Confined (border own) (lift (drainStep keyPrefix now size)) := by
  rw [drainStep_eq]
  refine confined_bind (confined_takeNext size) fun next => ?_
  cases next with
  | none => exact confined_pure ()
  | some t => exact writeTally_confined hown now t

end Calls

section Checks

variable {α : Type} [Quantity α] [QuantityText α] {own : String → Prop}
  {settings : LimiterSettings α}
  (hown : ∀ key, Text.startsWith settings.keyPrefix key = true → own key) (now : Instant)
include hown

theorem checkWith_confined (d : Dimension) (capacity rate interval cost : α) :
    Confined (border own) (lift (checkWith settings now d capacity rate interval cost)) := by
  unfold checkWith
  split
  · exact confined_bind (confined_say _) fun _ => confined_failOpen d.kind
  · refine confined_bind (confined_askBreaker settings.breaker now) fun passes => ?_
    split
    · exact confined_bind (confined_say _) fun _ => confined_failOpen d.kind
    · refine confined_bind (confined_storageKey hown (Store.takeTokens_actsOn now _ _))
        fun answer => ?_
      cases answer with
      | error e =>
        exact confined_bind (confined_reportFailure settings.breaker now) fun _ =>
          confined_bind (confined_say _) fun _ => confined_failOpen d.kind
      | ok outcome =>
        have hrecord : Confined (border own) (lift do
            record settings.backlogCapacity d.kind outcome.allowed
            return outcome.allowed) :=
          confined_bind (confined_record settings.backlogCapacity d.kind outcome.allowed) fun _ =>
            confined_pure outcome.allowed
        refine confined_bind confined_reportSuccess fun _ => ?_
        dsimp only
        split
        · exact confined_bind (confined_say _) fun _ => hrecord
        · exact hrecord

theorem check_confined (d : Dimension) :
    Confined (border own) (lift (check settings now d)) := by
  unfold check
  dsimp only
  split
  · exact checkWith_confined hown now d _ _ _ _
  · exact confined_pure true

theorem checkEach_confined (ds : List Dimension) :
    Confined (border own) (lift (checkEach settings now ds)) := by
  induction ds with
  | nil => exact confined_pure true
  | cons d rest ih =>
    refine confined_bind (check_confined hown now d) fun allowed => ?_
    cases allowed with
    | true => exact ih
    | false => exact confined_pure false

/-- Every call of a limiter keeps to the keys under its prefix. -/
theorem perform_confined (c : Call α) :
    Confined (border own) (lift (perform settings now c)) := by
  cases c with
  | check d => exact (check_confined hown now d).map
  | checkWith d capacity rate interval cost =>
    exact (checkWith_confined hown now d capacity rate interval cost).map
  | checkAll ip user endpoint =>
    exact Confined.map (checkEach_confined hown now (dimensionsOf ip user endpoint))
  | resetBucket d => exact (resetBucket_confined hown now d).map
  | bucketState d => exact (bucketState_confined hown now d).map
  | sharedStatistics kind => exact (sharedStatistics_confined hown now kind).map

end Checks
end Limiter
end Bulwark
