import Bulwark.Proofs.Accounts.Occurrence
import Bulwark.Proofs.Limiter.Moves

/-!
# The accounts of a limiter

Every check with explicit parameters answers once and is counted once, whatever way it takes: with
useless parameters, at an open breaker, by the store, or at a store that fails.  `answers` lists
these answers for each call, as the calls that make them go, and `perform_counts` says that a call
counts them and nothing else.
-/

namespace Bulwark.Limiter

variable {α : Type}

/-! ## Answers -/

section Answers

variable [Quantity α] [QuantityText α]

/-- The answer of a check with explicit parameters. -/
def answersWith (settings : LimiterSettings α) (now : Instant) (d : Dimension)
    (capacity rate interval cost : α) (s : Session) : List Occurrence :=
  [.answered d.kind (checkWith settings now d capacity rate interval cost s).1
    (verdict? settings now d capacity rate interval cost s).isSome]

/-- The answer of such a check in a check of one dimension.  A kind that takes no part has none. -/
def answersOn (settings : LimiterSettings α) (now : Instant) (d : Dimension) (s : Session) :
    List Occurrence :=
  let a := settings.allowances.get d.kind
  if a.enabled then answersWith settings now d a.capacity a.rate a.interval Quantity.one s else []

/-- The answers in checks of several dimensions, up to the first that rejects. -/
def answersOnEach (settings : LimiterSettings α) (now : Instant) :
    List Dimension → Session → List Occurrence
  | [], _ => []
  | d :: rest, s =>
    let (allowed, t) := check settings now d s
    answersOn settings now d s ++ if allowed then answersOnEach settings now rest t else []

/-- The answers of checks with explicit parameters in a call. -/
def answers (settings : LimiterSettings α) (now : Instant) : Call α → Session → List Occurrence
  | .check d, s => answersOn settings now d s
  | .checkWith d capacity rate interval cost, s =>
    answersWith settings now d capacity rate interval cost s
  | .checkAll ip user endpoint, s => answersOnEach settings now (dimensionsOf ip user endpoint) s
  | .resetBucket _, _ => []
  | .bucketState _, _ => []
  | .sharedStatistics _, _ => []

end Answers

/-! ## What a call counts -/

/-- The counts of decisions have moved by the occurrences, and by nothing else. -/
abbrev Counts (s : Session) (os : List Occurrence) (t : Session) : Prop :=
  FollowsIn (fun c admission => { c with admission }) s.admission os t.admission

/-- A check is counted by its answer, and apart if the store has not decided it. -/
theorem follows_counted (c : Counters) (counts : PerKind AdmissionCount) (kind : DimensionKind)
    (verdict : Option Bool) :
    Counters.Follows { c with admission := counts }
      [.answered kind (verdict.getD true) verdict.isSome]
      { c with admission := counts.set kind (counted (counts.get kind) verdict) } := by
  intro col
  -- a column of another kind stays as it is
  cases col with
  | checks k => cases k <;> cases kind <;> rcases verdict with _ | _ | _ <;> rfl
  | answers k allowed =>
    cases allowed <;> cases k <;> cases kind <;> rcases verdict with _ | _ | _ <;> rfl
  | failOpen k => cases k <;> cases kind <;> rcases verdict with _ | _ | _ <;> rfl
  | _ => rfl

section Calls

variable [Quantity α] [QuantityText α] (settings : LimiterSettings α) (now : Instant)

theorem checkWith_counts (d : Dimension) (capacity rate interval cost : α) (s : Session) :
    Counts s (answersWith settings now d capacity rate interval cost s)
      (checkWith settings now d capacity rate interval cost s).2 := by
  obtain ⟨log, hcheck⟩ := checkWith_eq_verdict settings now d capacity rate interval cost s
  unfold answersWith
  rw [hcheck]
  exact fun c => follows_counted c s.admission d.kind _

theorem check_counts (d : Dimension) (s : Session) :
    Counts s (answersOn settings now d s) (check settings now d s).2 := by
  unfold check answersOn
  dsimp only
  split
  · exact checkWith_counts settings now d _ _ _ _ s
  · exact .nothing rfl

theorem checkEach_counts (dims : List Dimension) (s : Session) :
    Counts s (answersOnEach settings now dims s) (checkEach settings now dims s).2 := by
  induction dims generalizing s with
  | nil => exact .nothing rfl
  | cons d rest ih =>
    have hfirst := check_counts settings now d s
    unfold checkEach answersOnEach
    rw [bind_apply]
    generalize check settings now d s = r at hfirst ⊢
    obtain ⟨allowed, t⟩ := r
    cases allowed with
    | true => exact hfirst.trans (ih t)
    | false => exact hfirst.trans (.nothing rfl)

omit [Quantity α] in
theorem bucketState_admission (keyPrefix : String) (d : Dimension) (s : Session) :
    (bucketState (α := α) keyPrefix now d s).2.admission = s.admission := by
  unfold bucketState
  rw [bind_apply]
  have hfirst : (callStore (·.hashGet now (d.storageKey keyPrefix) Bucket.tokensField)
      s).2.admission = s.admission := rfl
  generalize callStore _ s = r at hfirst ⊢
  obtain ⟨_ | tokens, t⟩ := r
  · exact hfirst
  · rw [← hfirst]
    dsimp only
    rw [bind_apply]
    have hsecond : (callStore (·.hashGet now (d.storageKey keyPrefix) Bucket.lastRefillField)
        t).2.admission = t.admission := rfl
    generalize callStore _ t = r at hsecond ⊢
    obtain ⟨_ | lastRefill, u⟩ := r <;> exact hsecond

theorem readCount_admission (key field : String) (s : Session) :
    (readCount now key field s).2.admission = s.admission := by
  have hcall : (callStore (·.hashGet now key field) s).2.admission = s.admission := rfl
  unfold readCount
  rw [bind_apply]
  generalize callStore _ s = r at hcall ⊢
  obtain ⟨_ | text, t⟩ := r <;> exact hcall

/-- A call counts the answers of its checks, and nothing else. -/
theorem perform_counts (call : Call α) (s : Session) :
    Counts s (answers settings now call s) (perform settings now call s).2 := by
  unfold perform answers
  cases call with
  | check d => exact check_counts settings now d s
  | checkWith d capacity rate interval cost =>
    exact checkWith_counts settings now d capacity rate interval cost s
  | checkAll ip user endpoint =>
    exact checkEach_counts settings now (dimensionsOf ip user endpoint) s
  | resetBucket d => exact .nothing rfl
  | bucketState d => exact .nothing (bucketState_admission now settings.keyPrefix d s)
  | sharedStatistics kind =>
    refine .nothing (sharedStatistics_rel (r := fun s t => t.admission = s.admission) ?_ ?_ s)
    · exact fun field => readCount_admission now (statisticsKey settings.keyPrefix kind) field
    · exact fun h h' => h'.trans h

end Calls

end Bulwark.Limiter
