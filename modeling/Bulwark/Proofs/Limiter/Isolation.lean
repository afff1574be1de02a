import Mathlib.Data.List.Sort
import Bulwark.Proofs.Limiter.Passage
import Bulwark.Proofs.Limiter.Schedule

/-!
# Dimensions are isolated

Every bucket has a key of its own, apart from those of the shared statistics, so a check never
touches the bucket of another dimension.  On a healthy store, at one moment, a check is therefore
determined by the checks of its own dimension before it, and checks of different dimensions may
change places (`checks_commute`).  The drains may run whenever they like.

The step lemma is that a check with explicit parameters is an operation on one key
(`Demand.check_of_healthy`).  From it, a run is projected to one dimension: of the other checks and
the drains nothing is left (`transcript_projects`).
-/

namespace Bulwark.Limiter

variable {α ι : Type}

/-! ## Checks as data -/

/-- What a check with explicit parameters asks for. -/
structure Demand (α : Type) where
  dimension : Dimension
  capacity : α
  rate : α
  interval : α
  cost : α

/-- A step of a run: one of the checks, or a step of a drain. -/
inductive Step (ι : Type) where
  | check (i : ι)
  | drain (size : ℕ)

/-- The checks among steps. -/
def checksIn : List (Step ι) → List ι
  | [] => []
  | .check i :: rest => i :: checksIn rest
  | .drain _ :: rest => checksIn rest

section Definitions

variable [Quantity α] [QuantityText α] (settings : LimiterSettings α) (now : Instant)

namespace Demand

/-- The admission step that a demand asks for. -/
def request (c : Demand α) : Bucket.Request α :=
  Limiter.request now c.capacity c.rate c.interval c.cost

/-- The check. -/
def check (c : Demand α) : Action Bool :=
  checkWith settings now c.dimension c.capacity c.rate c.interval c.cost

/-- What the check makes of a store that answers. -/
def onStore (c : Demand α) (store : Store) : Store.Result Bool :=
  if Allowance.areValid c.capacity c.rate c.interval && isCost c.cost then
    .map (·.allowed)
      (store.takeTokens now (c.dimension.storageKey settings.keyPrefix) (c.request now))
  else (.ok true, store)

/-- The fate of the dimension in the check. -/
def fate (c : Demand α) (s : Session) : Fate α :=
  fateWith settings now c.dimension c.capacity c.rate c.interval c.cost s

theorem check_meets (c : Demand α) (s : Session) :
    (c.check settings now s).1 = (c.fate settings now s).allowed ∧
      Meets settings now c.dimension (c.request now) (c.fate settings now s) s
        (c.check settings now s).2 :=
  checkWith_meets settings now c.dimension c.capacity c.rate c.interval c.cost s

theorem onStore_actsOn (c : Demand α) :
    Store.ActsOn (c.dimension.storageKey settings.keyPrefix) (c.onStore settings now) := by
  unfold onStore
  split
  · exact (Store.takeTokens_actsOn now _ _).map _ _
  · exact ⟨fun _ _ _ => rfl, fun _ _ h => ⟨rfl, h⟩⟩

end Demand

variable (calls : ι → Demand α)

/-- The session after a step. -/
def Step.after (s : Session) : Step ι → Session
  | .check i => ((calls i).check settings now s).2
  | .drain size => (drainStep settings.keyPrefix now size s).2

/-- The session after steps. -/
def afterSteps (steps : List (Step ι)) (s : Session) : Session :=
  steps.foldl (Step.after settings now calls) s

/-- The checks in steps, each with its answer. -/
def transcript : List (Step ι) → Session → List (ι × Bool)
  | [], _ => []
  | .check i :: rest, s =>
    (i, ((calls i).check settings now s).1) ::
      transcript rest (Step.after settings now calls s (.check i))
  | .drain size :: rest, s => transcript rest (Step.after settings now calls s (.drain size))

end Definitions

/-! ## One step -/

/-- A healthy session without a text under the key of a bucket. -/
structure Clear (settings : LimiterSettings α) (now : Instant) (s : Session) : Prop where
  healthy : Healthy s
  not_text : ∀ d : Dimension, ¬ s.gate.store.holdsText now (d.storageKey settings.keyPrefix)

/-- Sessions with the same bucket. -/
abbrev SameBucket (settings : LimiterSettings α) (d : Dimension) (s s' : Session) : Prop :=
  Gate.Alike (· ≠ d.storageKey settings.keyPrefix) s.gate s'.gate

section Steps

variable {settings : LimiterSettings α} {now : Instant} {s s' t : Session} {d : Dimension}

/-- A step of a drain touches no bucket. -/
theorem drainStep_sameBucket (size : ℕ) (hopen : s.gate.IsOpen) :
    SameBucket settings d s (drainStep settings.keyPrefix now size s).2 := by
  have halike : Alike settings.keyPrefix s (drainStep settings.keyPrefix now size s).2 :=
    drainStep_alike now size hopen
  refine ⟨hopen, halike.gate.isOpen', halike.gate.position_eq, fun k hk => ?_⟩
  rw [not_not.mp hk]
  exact halike.gate.agree _ (not_isStatistics_storageKey settings.keyPrefix d)

theorem drainStep_clear (size : ℕ) (hs : Clear settings now s) :
    Clear settings now (drainStep settings.keyPrefix now size s).2 := by
  have halike : Alike settings.keyPrefix s (drainStep settings.keyPrefix now size s).2 :=
    drainStep_alike now size hs.healthy.isOpen
  refine ⟨⟨halike.gate.isOpen', halike.breaker ▸ hs.healthy.closed⟩, fun d => ?_⟩
  rw [Store.holdsText_congr
    (halike.gate.agree _ (not_isStatistics_storageKey settings.keyPrefix d)).symm]
  exact hs.not_text d

/-- The bucket that is read off a session is the same in sessions with the same bucket. -/
theorem bucketState_congr [QuantityText α] (moment : Instant) (h : SameBucket settings d s s') :
    (bucketState (α := α) settings.keyPrefix moment d s).1 =
      (bucketState settings.keyPrefix moment d s').1 := by
  have hkey : ¬ d.storageKey settings.keyPrefix ≠ d.storageKey settings.keyPrefix := not_not.mpr rfl
  have hcall : ∀ field {s s' : Session}, SameBucket settings d s s' →
      (callStore (·.hashGet moment (d.storageKey settings.keyPrefix) field) s).1 =
          (callStore (·.hashGet moment (d.storageKey settings.keyPrefix) field) s').1 ∧
        SameBucket settings d
          (callStore (·.hashGet moment (d.storageKey settings.keyPrefix) field) s).2
          (callStore (·.hashGet moment (d.storageKey settings.keyPrefix) field) s').2 :=
    fun field _ _ h => h.call (Store.hashGet_actsOn moment _ field) hkey
  unfold bucketState
  rw [bind_apply, bind_apply]
  obtain ⟨hanswer, hafter⟩ := hcall Bucket.tokensField h
  rw [hanswer]
  cases (callStore (·.hashGet moment _ Bucket.tokensField) s').1 with
  | error _ => rfl
  | ok tokens =>
    dsimp only
    rw [bind_apply, bind_apply, (hcall Bucket.lastRefillField hafter).1]
    generalize (callStore (·.hashGet moment _ Bucket.lastRefillField) _).1 = answer
    cases answer <;> rfl

variable [Quantity α] [QuantityText α]

/-- An open gate stays open in a check. -/
theorem Meets.isOpen {r : Bucket.Request α} {f : Fate α}
    (h : Meets settings now d r f s t) (hopen : s.gate.IsOpen) :
    t.gate.IsOpen ∧ t.gate.position = s.gate.position := by
  have hplan := congrArg Gate.plan h.gate
  rw [apply_ite Gate.plan, hopen.next.plan_nil, hopen.plan_nil, ite_self] at hplan
  have hfailing := congrArg Gate.failing h.gate
  rw [apply_ite Gate.failing, Gate.next_failing, ite_self] at hfailing
  have hposition := congrArg Gate.position h.gate
  rw [apply_ite Gate.position, Gate.next_position, ite_self] at hposition
  exact ⟨⟨hplan, hfailing.trans hopen.connected⟩, hposition⟩

/-- A check changes no bucket of another dimension. -/
theorem Meets.sameBucket {d' : Dimension} {r : Bucket.Request α} {f : Fate α}
    (h : Meets settings now d' r f s t) (hopen : s.gate.IsOpen) (hne : d ≠ d') :
    SameBucket settings d s t := by
  obtain ⟨hopen', hposition⟩ := h.isOpen hopen
  refine ⟨hopen, hopen', hposition.symm, fun k hk => (h.others fun _ _ heq => hne ?_).symm⟩
  rw [not_not.mp hk] at heq
  exact Dimension.storageKey_injective settings.keyPrefix heq

/-- No check leaves a text under the key of a bucket. -/
theorem Meets.not_text {r : Bucket.Request α} {f : Fate α}
    (h : Meets settings now d r f s t) {key : String} (hbefore : ¬ s.gate.store.holdsText now key) :
    ¬ t.gate.store.holdsText now key := by
  by_cases hstep : ∃ outcome, f = .decided outcome ∧ key = d.storageKey settings.keyPrefix
  · obtain ⟨outcome, hf, rfl⟩ := hstep
    obtain ⟨_, _, _, hwrites⟩ := h.stepped outcome hf
    exact hwrites.entry.not_text now
  · rw [Store.holdsText_congr (h.others fun outcome hf heq => hstep ⟨outcome, hf, heq⟩)]
    exact hbefore

namespace Demand

/-- On a healthy store a check is an operation on the key of its dimension, and keeps the breaker
closed. -/
theorem check_of_healthy (c : Demand α) (hs : Healthy s)
    (htext : ¬ s.gate.store.holdsText now (c.dimension.storageKey settings.keyPrefix)) :
    c.onStore settings now s.gate.store =
        (.ok (c.check settings now s).1, (c.check settings now s).2.gate.store) ∧
      (c.check settings now s).2.breaker.phase = .closed := by
  cases hpayable : Allowance.areValid c.capacity c.rate c.interval && isCost c.cost with
  | true =>
    obtain ⟨hvalid, hcost⟩ := Bool.and_eq_true_iff.mp hpayable
    have htake := Store.takeTokens_eq htext (c.request now)
    obtain ⟨t, hcheck, hhealthy, hstore⟩ := checkWith_of_healthy hvalid hcost hs htake
    have hcheck : c.check settings now s = _ := hcheck
    rw [hcheck, onStore, if_pos hpayable, htake, hstore]
    exact ⟨rfl, hhealthy.closed⟩
  | false =>
    obtain ⟨hanswer, hmeets⟩ := c.check_meets settings now s
    have hfate : c.fate settings now s = .invalid := if_neg (ne_true_of_eq_false hpayable)
    rw [hfate] at hanswer hmeets
    rw [onStore, if_neg (ne_true_of_eq_false hpayable)]
    refine ⟨Prod.ext (congrArg Except.ok hanswer.symm) (hmeets.kept nofun).symm, ?_⟩
    exact (congrArg Breaker.phase hmeets.breaker).trans hs.closed

theorem check_clear (c : Demand α) (hs : Clear settings now s) :
    Clear settings now (c.check settings now s).2 := by
  obtain ⟨_, hclosed⟩ := c.check_of_healthy hs.healthy (hs.not_text c.dimension)
  obtain ⟨_, hmeets⟩ := c.check_meets settings now s
  exact ⟨⟨(hmeets.isOpen hs.healthy.isOpen).1, hclosed⟩, fun d => hmeets.not_text (hs.not_text d)⟩

/-- A check does the same in sessions with the same bucket. -/
theorem check_alike (c : Demand α) (hs : Clear settings now s) (hs' : Clear settings now s')
    (h : SameBucket settings c.dimension s s') :
    (c.check settings now s).1 = (c.check settings now s').1 ∧
      SameBucket settings c.dimension (c.check settings now s).2 (c.check settings now s').2 := by
  have hentry := h.agree (c.dimension.storageKey settings.keyPrefix) (not_not.mpr rfl)
  obtain ⟨honStore, _⟩ := c.check_of_healthy hs.healthy (hs.not_text c.dimension)
  obtain ⟨honStore', _⟩ := c.check_of_healthy hs'.healthy (hs'.not_text c.dimension)
  obtain ⟨hanswer, hafter⟩ := (c.onStore_actsOn settings now).congr _ _ hentry
  rw [honStore, honStore'] at hanswer hafter
  have hposition : ∀ u, Clear settings now u →
      (c.check settings now u).2.gate.position = u.gate.position :=
    fun u hu => ((c.check_meets settings now u).2.isOpen hu.healthy.isOpen).2
  refine ⟨Except.ok.inj hanswer, (c.check_clear hs).healthy.isOpen,
    (c.check_clear hs').healthy.isOpen, ?_, fun k hk => ?_⟩
  · rw [hposition s hs, hposition s' hs', h.position_eq]
  · rw [not_not.mp hk]
    exact hafter

end Demand
end Steps

/-! ## Runs -/

section Runs

variable [Quantity α] [QuantityText α] {settings : LimiterSettings α} {now : Instant}
  {calls : ι → Demand α} {s s' : Session} {d : Dimension}

theorem Step.after_clear (step : Step ι) (hs : Clear settings now s) :
    Clear settings now (step.after settings now calls s) := by
  cases step with
  | check i => exact (calls i).check_clear hs
  | drain size => exact drainStep_clear size hs

theorem transcript_checks (settings : LimiterSettings α) (now : Instant) (calls : ι → Demand α)
    (steps : List (Step ι)) (s : Session) :
    (transcript settings now calls steps s).map Prod.fst = checksIn steps := by
  induction steps generalizing s with
  | nil => rfl
  | cons step rest ih =>
    cases step with
    | check i => exact congrArg (i :: ·) (ih _)
    | drain size => exact ih _

/-- To one dimension a run is its own checks. -/
theorem transcript_projects (calls : ι → Demand α) (steps : List (Step ι))
    (hs : Clear settings now s) (hs' : Clear settings now s') (h : SameBucket settings d s s') :
    let own := (checksIn steps).filter fun i => (calls i).dimension = d
    (transcript settings now calls steps s).filter (fun p => (calls p.1).dimension = d) =
        transcript settings now calls (own.map .check) s' ∧
      SameBucket settings d (afterSteps settings now calls steps s)
        (afterSteps settings now calls (own.map .check) s') := by
  induction steps generalizing s s' with
  | nil => exact ⟨rfl, h⟩
  | cons step rest ih =>
    have hclear : Clear settings now (step.after settings now calls s) := step.after_clear hs
    cases step with
    | drain size =>
      have hstep : SameBucket settings d s (drainStep settings.keyPrefix now size s).2 :=
        drainStep_sameBucket size hs.healthy.isOpen
      exact ih hclear hs' (hstep.symm.trans h)
    | check i =>
      by_cases hown : (calls i).dimension = d
      · subst hown
        obtain ⟨hanswer, hafter⟩ := (calls i).check_alike hs hs' h
        obtain ⟨hrest, hend⟩ := ih hclear ((calls i).check_clear hs') hafter
        simp only [checksIn, transcript, List.filter_cons, decide_true, if_true, List.map_cons]
        rw [hanswer, hrest]
        exact ⟨rfl, hend⟩
      · have hstep : SameBucket settings d s ((calls i).check settings now s).2 :=
          ((calls i).check_meets settings now s).2.sameBucket hs.healthy.isOpen (Ne.symm hown)
        simp only [checksIn, transcript, List.filter_cons, hown, decide_false, Bool.false_eq_true,
          if_false]
        exact ih hclear hs' (hstep.symm.trans h)

/-- To one dimension, runs with the same checks of it are the same. -/
theorem runs_agree {steps steps' : List (Step ι)} (hs : Clear settings now s)
    (hown : (checksIn steps').filter (fun i => (calls i).dimension = d) =
      (checksIn steps).filter fun i => (calls i).dimension = d) :
    (transcript settings now calls steps' s).filter (fun p => (calls p.1).dimension = d) =
        (transcript settings now calls steps s).filter (fun p => (calls p.1).dimension = d) ∧
      SameBucket settings d (afterSteps settings now calls steps' s)
        (afterSteps settings now calls steps s) := by
  have hself : SameBucket settings d s s := .refl hs.healthy.isOpen
  obtain ⟨hrun, hend⟩ := transcript_projects calls steps hs hs hself
  obtain ⟨hrun', hend'⟩ := transcript_projects calls steps' hs hs hself
  rw [hown] at hrun' hend'
  exact ⟨hrun'.trans hrun.symm, hend'.trans hend.symm⟩

/-- Where every name has one answer, the answers are a function of the names. -/
theorem exists_answer {answers : List (ι × Bool)} (h : (answers.map Prod.fst).Nodup) :
    ∃ answer : ι → Bool, ∀ p ∈ answers, p = (p.1, answer p.1) := by
  classical
  refine ⟨fun i => decide ((i, true) ∈ answers), ?_⟩
  rintro ⟨i, _ | _⟩ hp
  · have hnot : (i, true) ∉ answers := fun hyes =>
      absurd (List.inj_on_of_nodup_map h hp hyes rfl) nofun
    exact congrArg (Prod.mk i) (decide_eq_false hnot).symm
  · exact congrArg (Prod.mk i) (decide_eq_true hp).symm

theorem eq_map_of_answer {answers : List (ι × Bool)} {answer : ι → Bool}
    (h : ∀ p ∈ answers, p = (p.1, answer p.1)) :
    answers = (answers.map Prod.fst).map fun i => (i, answer i) := by
  rw [List.map_map]
  exact (List.map_id answers).symm.trans (List.map_congr_left h)

/-- An order of checks that keeps the order on a dimension has the same checks of it, in order. -/
theorem filter_map_finRange {n : ℕ} {p : Fin n → Bool} {σ : Equiv.Perm (Fin n)}
    (hσ : ∀ i j, i < j → p (σ i) = true → p (σ j) = true → σ i < σ j) :
    ((List.finRange n).map σ).filter p = (List.finRange n).filter p := by
  have hsorted : ((List.finRange n).filter p).Pairwise (· < ·) :=
    (List.sortedLT_finRange n).pairwise.filter p
  have hsorted' : (((List.finRange n).map σ).filter p).Pairwise (· < ·) := by
    rw [List.pairwise_filter, List.pairwise_map]
    exact (List.sortedLT_finRange n).pairwise.imp fun {i j} hij => hσ i j hij
  refine hsorted'.eq_of_mem_iff hsorted fun i => ?_
  simp only [List.mem_filter, List.mem_map, List.mem_finRange, true_and]
  exact ⟨fun h => h.2, fun h => ⟨⟨σ.symm i, σ.apply_symm_apply i⟩, h⟩⟩

/-- **Dimensions are isolated, and their checks commute.**  Different dimensions have different
keys, and none is a key of the shared statistics.  So, on a healthy store that holds no text under
the key of a bucket, the checks of a run at one moment may change places, as long as those of one
dimension keep their order: every check gets the same answer, every bucket is the same at the end,
and drains may run in between as they like.  No check changes the bucket of another dimension,
whatever the state of the store and the breaker. -/
theorem checks_commute :
    (∀ keyPrefix, Function.Injective (Dimension.storageKey keyPrefix)) ∧
    (∀ keyPrefix (d : Dimension) kind, d.storageKey keyPrefix ≠ statisticsKey keyPrefix kind) ∧
    ∀ (settings : LimiterSettings α) (now : Instant),
      (∀ {n : ℕ} (calls : Fin n → Demand α) (σ : Equiv.Perm (Fin n)) (s : Session)
          (steps steps' : List (Step (Fin n))),
        Healthy s →
        (∀ d : Dimension, ¬ s.gate.store.holdsText now (d.storageKey settings.keyPrefix)) →
        (∀ i j, i < j → (calls (σ i)).dimension = (calls (σ j)).dimension → σ i < σ j) →
        checksIn steps = List.finRange n → checksIn steps' = (List.finRange n).map σ →
          ∃ answer : Fin n → Bool,
            transcript settings now calls steps s = (List.finRange n).map (fun i => (i, answer i)) ∧
            transcript settings now calls steps' s =
              (List.finRange n).map (fun i => (σ i, answer (σ i))) ∧
            ∀ d moment,
              (bucketState (α := α) settings.keyPrefix moment d
                  (afterSteps settings now calls steps s)).1 =
                (bucketState settings.keyPrefix moment d
                  (afterSteps settings now calls steps' s)).1) ∧
      ∀ (d d' : Dimension) (s t : Session), d ≠ d' →
        t = (Limiter.check settings now d' s).2 ∨
          (∃ c : Demand α, c.dimension = d' ∧ t = (c.check settings now s).2) →
        t.gate.store.entries.get? (d.storageKey settings.keyPrefix) =
            s.gate.store.entries.get? (d.storageKey settings.keyPrefix) ∧
          (s.gate.IsOpen → ∀ moment,
            (bucketState (α := α) settings.keyPrefix moment d t).1 =
              (bucketState settings.keyPrefix moment d s).1) := by
  refine ⟨Dimension.storageKey_injective, fun keyPrefix d kind heq =>
    not_isStatistics_storageKey keyPrefix d ⟨kind, heq⟩, fun settings now =>
      ⟨?_, fun d d' s t hne ht => ?_⟩⟩
  · intro n calls σ s steps steps' hhealthy htext hσ hsteps hsteps'
    have hs : Clear settings now s := ⟨hhealthy, htext⟩
    have hown : ∀ d, (checksIn steps').filter (fun i => (calls i).dimension = d) =
        (checksIn steps).filter (fun i => (calls i).dimension = d) := by
      intro d
      rw [hsteps, hsteps']
      exact filter_map_finRange fun i j hij hi hj => hσ i j hij
        ((of_decide_eq_true hi).trans (of_decide_eq_true hj).symm)
    have hchecks := (transcript_checks settings now calls steps s).trans hsteps
    have hchecks' := (transcript_checks settings now calls steps' s).trans hsteps'
    obtain ⟨answer, hanswer⟩ := exists_answer (hchecks.symm ▸ List.nodup_finRange n)
    have hanswer' : ∀ p ∈ transcript settings now calls steps' s, p = (p.1, answer p.1) := by
      intro p hp
      have hmine : p ∈ (transcript settings now calls steps' s).filter
          fun q => (calls q.1).dimension = (calls p.1).dimension :=
        List.mem_filter.mpr ⟨hp, decide_eq_true rfl⟩
      rw [(runs_agree hs (hown _)).1] at hmine
      exact hanswer p (List.mem_filter.mp hmine).1
    refine ⟨answer, ?_, ?_, fun d moment =>
      (bucketState_congr moment (runs_agree hs (hown d)).2).symm⟩
    · rw [← hchecks]
      exact eq_map_of_answer hanswer
    · rw [eq_map_of_answer hanswer', hchecks', List.map_map]
      rfl
  · obtain ⟨r, f, hmeets⟩ : ∃ r f, Meets (α := α) settings now d' r f s t := by
      rcases ht with rfl | ⟨c, rfl, rfl⟩
      · exact ⟨_, _, (Limiter.check_meets settings now d' s).2⟩
      · exact ⟨_, _, (c.check_meets settings now s).2⟩
    refine ⟨hmeets.others fun _ _ heq => hne (Dimension.storageKey_injective _ heq),
      fun hopen moment => ?_⟩
    exact (bucketState_congr moment (hmeets.sameBucket hopen hne)).symm

end Runs

/-- Two requests for the one token of an address, and one for that of a user whose name is the
address with its kind. -/
def confusable : Fin 3 → Demand ℚ
  | 0 => ⟨⟨.ip, "10.0.0.1"⟩, 1, 1, 60, 1⟩
  | 1 => ⟨⟨.ip, "10.0.0.1"⟩, 1, 1, 60, 1⟩
  | 2 => ⟨⟨.user, "ip:10.0.0.1"⟩, 1, 1, 60, 1⟩

/-- The user may go between the two requests of the address, and drains between all of them. -/
theorem checks_commute_confusable :
    let settings : LimiterSettings ℚ := .standard
    let σ : Equiv.Perm (Fin 3) := .swap 1 2
    let steps : List (Step (Fin 3)) := [.check 0, .check 1, .check 2]
    let steps' : List (Step (Fin 3)) := [.check 0, .drain 64, .check 2, .drain 64, .check 1]
    let run := @transcript ℚ (Fin 3) _ Quantity.fractions settings ⟨0⟩ confusable
    let after := @afterSteps ℚ (Fin 3) _ Quantity.fractions settings ⟨0⟩ confusable
    Healthy unused ∧
      (∀ d : Dimension, ¬ unused.gate.store.holdsText ⟨0⟩ (d.storageKey settings.keyPrefix)) ∧
      (∀ i j, i < j → (confusable (σ i)).dimension = (confusable (σ j)).dimension → σ i < σ j) ∧
      checksIn steps = List.finRange 3 ∧ checksIn steps' = (List.finRange 3).map σ ∧
      run steps unused = [(0, true), (1, false), (2, true)] ∧
      run steps' unused = [(0, true), (2, true), (1, false)] ∧
      ∀ d moment,
        let state := @bucketState ℚ Quantity.fractions settings.keyPrefix moment d
        (state (after steps unused)).1 = (state (after steps' unused)).1 := by
  intro settings σ steps steps' run after
  have htext : ∀ d : Dimension,
      ¬ unused.gate.store.holdsText ⟨0⟩ (d.storageKey settings.keyPrefix) :=
    fun d => Store.not_text_of_not_visible rfl
  have hσ : ∀ i j, i < j →
      (confusable (σ i)).dimension = (confusable (σ j)).dimension → σ i < σ j := by decide
  have hsteps : checksIn steps = List.finRange 3 := by decide
  have hsteps' : checksIn steps' = (List.finRange 3).map σ := by decide
  obtain ⟨_, _, _, hbuckets⟩ := ((@checks_commute ℚ _ Quantity.fractions).2.2 settings
    ⟨0⟩).1 confusable σ unused steps steps' healthy_unused htext hσ hsteps hsteps'
  refine ⟨healthy_unused, htext, hσ, hsteps, hsteps', ?_, ?_, hbuckets⟩
  · decide +kernel
  · decide +kernel

end Bulwark.Limiter
