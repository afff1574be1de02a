import Mathlib.Algebra.BigOperators.Group.List.Basic
import Bulwark.Proofs.Limiter.Decisions

/-!
# What becomes of decisions in a queue

A queue takes a decision or refuses it, and a batch off the queue is folded into tallies.  Of each
kind and result, neither step makes a decision appear or vanish: `countP_offerAll` and
`underWay_takeBatch` say so, for a whole list of offers and for a batch of any size.
-/

namespace Bulwark

variable {kind : DimensionKind} {allowed : Bool}

/-! ## Tallies -/

/-- The decisions of a kind and a result in a tally. -/
def Tally.part (kind : DimensionKind) (allowed : Bool) (t : Tally) : ℕ :=
  if t.kind = kind then (if allowed then t.allowed else t.blocked) else 0

/-- The decisions of a kind and a result in several tallies. -/
def Tally.partAll (kind : DimensionKind) (allowed : Bool) (tallies : List Tally) : ℕ :=
  (tallies.map (Tally.part kind allowed)).sum

theorem Tally.partAll_append (tallies tallies' : List Tally) :
    Tally.partAll kind allowed (tallies ++ tallies') =
      Tally.partAll kind allowed tallies + Tally.partAll kind allowed tallies' := by
  unfold Tally.partAll
  rw [List.map_append, List.sum_append]

/-- A tally of a kind counts the decisions of the batch on that kind. -/
theorem Tally.part_ofBatch? (batch : List Decision) (k : DimensionKind) :
    Tally.partAll kind allowed (Tally.ofBatch? batch k).toList =
      if k = kind then batch.countP (Decision.is kind allowed) else 0 := by
  have hcount : batch.countP (Decision.is k allowed) =
      (batch.filter (·.kind == k)).countP (·.allowed == allowed) := by
    rw [List.countP_filter]
    exact List.countP_congr fun d _ => by simp [Decision.is, and_comm]
  unfold Tally.ofBatch?
  dsimp only
  by_cases hempty : (batch.filter (·.kind == k)).isEmpty
  · rw [if_pos hempty]
    split
    · rename_i hk
      rw [← hk, hcount, List.isEmpty_iff.mp hempty]
      rfl
    · rfl
  · rw [if_neg hempty]
    simp only [Option.toList_some, partAll, List.map_cons, List.map_nil, List.sum_singleton, part]
    split
    · rename_i hk
      rw [← hk, hcount]
      cases allowed with
      | true => exact List.countP_congr fun d _ => by simp
      | false => exact List.countP_congr fun d _ => by simp
    · rfl

/-- The tallies of a batch count its decisions. -/
theorem Tally.partAll_ofBatch (batch : List Decision) :
    Tally.partAll kind allowed (Tally.ofBatch batch) = batch.countP (Decision.is kind allowed) := by
  have hparts : ∀ kinds : List DimensionKind,
      Tally.partAll kind allowed (kinds.filterMap (Tally.ofBatch? batch)) =
        kinds.count kind * batch.countP (Decision.is kind allowed) := by
    intro kinds
    induction kinds with
    | nil => rw [List.count_nil, Nat.zero_mul]; rfl
    | cons k rest ih =>
      have hsplit : (k :: rest).filterMap (Tally.ofBatch? batch) =
          (Tally.ofBatch? batch k).toList ++ rest.filterMap (Tally.ofBatch? batch) := by
        rw [List.filterMap_cons]
        cases Tally.ofBatch? batch k <;> rfl
      rw [hsplit, partAll_append, ih, part_ofBatch?, List.count_cons]
      by_cases hk : k = kind
      · rw [if_pos hk, if_pos (by rw [hk]; exact beq_self_eq_true kind), Nat.add_mul, Nat.one_mul,
          Nat.add_comm]
      · rw [if_neg hk, if_neg (by simpa using hk), Nat.zero_add, Nat.add_zero]
  unfold ofBatch
  rw [hparts]
  cases kind <;> exact Nat.one_mul _

namespace Backlog

/-! ## Offers -/

/-- The decisions that find the queue full when they are offered in order. -/
def refusals (capacity : ℕ) : Backlog → List Decision → List Decision
  | _, [] => []
  | m, d :: rest =>
    (if m.queue.length < max capacity 1 then [] else [d]) ++
      refusals capacity (m.offer capacity d) rest

/-- A backlog after decisions have been offered in order. -/
def offerAll (capacity : ℕ) (m : Backlog) (ds : List Decision) : Backlog :=
  ds.foldl (·.offer capacity) m

variable {capacity : ℕ} {m : Backlog}

theorem offer_of_room (h : m.queue.length < max capacity 1) (d : Decision) :
    m.offer capacity d = { m with queue := m.queue ++ [d] } := if_pos h

theorem offer_of_full (h : ¬ m.queue.length < max capacity 1) (d : Decision) :
    m.offer capacity d = { m with dropped := m.dropped + 1 } := if_neg h

theorem refusals_of_room (h : m.queue.length < max capacity 1) (d : Decision)
    (ds : List Decision) : refusals capacity m (d :: ds) =
      refusals capacity { m with queue := m.queue ++ [d] } ds := by
  rw [refusals, if_pos h, offer_of_room h]
  rfl

theorem refusals_of_full (h : ¬ m.queue.length < max capacity 1) (d : Decision)
    (ds : List Decision) : refusals capacity m (d :: ds) =
      d :: refusals capacity { m with dropped := m.dropped + 1 } ds := by
  rw [refusals, if_neg h, offer_of_full h]
  rfl

/-- Only what is offered is refused, and once. -/
theorem refusals_sublist (m : Backlog) (ds : List Decision) :
    (refusals capacity m ds).Sublist ds := by
  induction ds generalizing m with
  | nil => exact .slnil
  | cons d rest ih =>
    by_cases hroom : m.queue.length < max capacity 1
    · rw [refusals_of_room hroom]
      exact (ih _).cons d
    · rw [refusals_of_full hroom]
      exact (ih _).cons_cons d

/-- Every decision offered is queued or refused. -/
theorem countP_offerAll (p : Decision → Bool) (m : Backlog) (ds : List Decision) :
    (m.offerAll capacity ds).queue.countP p + (refusals capacity m ds).countP p =
      m.queue.countP p + ds.countP p := by
  induction ds generalizing m with
  | nil => rfl
  | cons d rest ih =>
    by_cases hroom : m.queue.length < max capacity 1
    · have hrest := ih { m with queue := m.queue ++ [d] }
      rw [List.countP_append, List.countP_singleton] at hrest
      rw [refusals_of_room hroom, List.countP_cons]
      unfold offerAll
      rw [List.foldl_cons, offer_of_room hroom]
      exact hrest.trans (by omega)
    · have hrest := ih { m with dropped := m.dropped + 1 }
      rw [refusals_of_full hroom, List.countP_cons, List.countP_cons]
      unfold offerAll
      rw [List.foldl_cons, offer_of_full hroom, ← Nat.add_assoc, ← Nat.add_assoc]
      exact congrArg (· + _) hrest

/-- Offers leave the tallies alone. -/
theorem offerAll_pending (m : Backlog) (ds : List Decision) :
    (m.offerAll capacity ds).pending = m.pending := by
  induction ds generalizing m with
  | nil => rfl
  | cons d rest ih =>
    refine (ih (m.offer capacity d)).trans ?_
    unfold offer
    split <;> rfl

/-- Every refusal is counted, and nothing else is. -/
theorem offerAll_dropped (m : Backlog) (ds : List Decision) :
    (m.offerAll capacity ds).dropped =
      m.dropped + UInt64.ofNat (refusals capacity m ds).length := by
  induction ds generalizing m with
  | nil => exact (UInt64.add_zero _).symm
  | cons d rest ih =>
    refine (ih (m.offer capacity d)).trans ?_
    by_cases hroom : m.queue.length < max capacity 1
    · rw [refusals_of_room hroom, offer_of_room hroom]
    · rw [refusals_of_full hroom, offer_of_full hroom, List.length_cons, Nat.add_comm,
        UInt64.ofNat_add, ← UInt64.add_assoc]
      rfl

/-- No queue grows beyond its capacity. -/
theorem length_offerAll (m : Backlog) (ds : List Decision) (h : m.queue.length ≤ max capacity 1) :
    (m.offerAll capacity ds).queue.length ≤ max capacity 1 := by
  induction ds generalizing m with
  | nil => exact h
  | cons d rest ih =>
    refine ih (m.offer capacity d) ?_
    by_cases hroom : m.queue.length < max capacity 1
    · rw [offer_of_room hroom, List.length_append, List.length_singleton]
      exact hroom
    · rw [offer_of_full hroom]
      exact h

/-! ## Batches -/

/-- The decisions of a kind and a result that are on their way. -/
def underWay (kind : DimensionKind) (allowed : Bool) (m : Backlog) : ℕ :=
  m.queue.countP (Decision.is kind allowed) + Tally.partAll kind allowed m.pending

/-- A batch off the queue stays on its way. -/
theorem underWay_takeBatch (m : Backlog) (size : ℕ) :
    (m.takeBatch size).underWay kind allowed = m.underWay kind allowed := by
  unfold underWay takeBatch
  dsimp only
  rw [Tally.partAll_append, Tally.partAll_ofBatch]
  conv_rhs => rw [← List.take_append_drop (min size maxBatch) m.queue, List.countP_append]
  omega

end Backlog

/-! ## Accounts -/

/-- What has become of decisions: those that limiters have recorded, by the number of the limiter,
those that a full queue has refused, and the tallies that were written and that were lost. -/
structure Account where
  recorded : List (ℕ × Decision)
  refused : List (ℕ × Decision)
  written : List Tally
  lost : List Tally
  deriving DecidableEq, Repr

namespace Account

/-- Nothing has happened. -/
def nothing : Account := ⟨[], [], [], []⟩

/-- What has happened first, and then. -/
def add (a b : Account) : Account :=
  ⟨a.recorded ++ b.recorded, a.refused ++ b.refused, a.written ++ b.written, a.lost ++ b.lost⟩

/-- The recorded decisions of a kind and a result. -/
def recordedOf (kind : DimensionKind) (allowed : Bool) (a : Account) : ℕ :=
  (a.recorded.map Prod.snd).countP (Decision.is kind allowed)

/-- The refused decisions of a kind and a result. -/
def refusedOf (kind : DimensionKind) (allowed : Bool) (a : Account) : ℕ :=
  (a.refused.map Prod.snd).countP (Decision.is kind allowed)

/-- The decisions of a kind and a result in tallies that were written. -/
def writtenOf (kind : DimensionKind) (allowed : Bool) (a : Account) : ℕ :=
  Tally.partAll kind allowed a.written

/-- The decisions of a kind and a result in tallies that were lost. -/
def lostOf (kind : DimensionKind) (allowed : Bool) (a : Account) : ℕ :=
  Tally.partAll kind allowed a.lost

/-- How many decisions the queue of one limiter has refused. -/
def refusedBy (i : ℕ) (a : Account) : ℕ := a.refused.countP (·.1 == i)

variable (a b : Account)

@[simp]
theorem recordedOf_add :
    (a.add b).recordedOf kind allowed = a.recordedOf kind allowed + b.recordedOf kind allowed := by
  simp only [recordedOf, add, List.map_append, List.countP_append]

@[simp]
theorem refusedOf_add :
    (a.add b).refusedOf kind allowed = a.refusedOf kind allowed + b.refusedOf kind allowed := by
  simp only [refusedOf, add, List.map_append, List.countP_append]

@[simp]
theorem writtenOf_add :
    (a.add b).writtenOf kind allowed = a.writtenOf kind allowed + b.writtenOf kind allowed :=
  Tally.partAll_append _ _

@[simp]
theorem lostOf_add :
    (a.add b).lostOf kind allowed = a.lostOf kind allowed + b.lostOf kind allowed :=
  Tally.partAll_append _ _

@[simp]
theorem refusedBy_add (i : ℕ) : (a.add b).refusedBy i = a.refusedBy i + b.refusedBy i :=
  List.countP_append

/-- No more decisions are refused by one limiter than by all. -/
theorem refusedBy_le (i : ℕ) : a.refusedBy i ≤ a.refused.length := List.countP_le_length

theorem add_nothing : a.add nothing = a := by
  simp only [add, nothing, List.append_nil]

/-- No decision on a kind is both let in and rejected. -/
theorem recordedOf_add_le (kind : DimensionKind) :
    a.recordedOf kind true + a.recordedOf kind false ≤ a.recorded.length := by
  have hle : ∀ ds : List Decision,
      ds.countP (Decision.is kind true) + ds.countP (Decision.is kind false) ≤ ds.length := by
    intro ds
    induction ds with
    | nil => exact Nat.le_refl _
    | cons d rest ih =>
      have hone : ¬ (Decision.is kind true d = true ∧ Decision.is kind false d = true) := by
        simp only [Decision.is, Bool.and_eq_true, beq_iff_eq]
        rintro ⟨⟨_, htrue⟩, _, hfalse⟩
        rw [htrue] at hfalse
        cases hfalse
      rw [List.countP_cons, List.countP_cons, List.length_cons]
      split <;> split <;> first | omega | (rename_i h h'; exact absurd ⟨h, h'⟩ hone)
  have h := hle (a.recorded.map Prod.snd)
  rwa [List.length_map] at h

theorem add_assoc (c : Account) : (a.add b).add c = a.add (b.add c) := by
  simp only [add, List.append_assoc]

end Account
end Bulwark
