import Bulwark.Deployment
import Bulwark.Proofs.Limiter.Shared

/-!
# Limiters and their drains, side by side

In a deployment the queues to the shared statistics are written while the limiters work on.  Here a
call of a limiter and one step of a drain are moves of their own, in any order and with anything
else in between: the clock is moved, calls of the store are made to fail, and others work on the
store (`Deployment.run`).  Beside the deployment, a run gives the account of what has become of
the decisions.

`Deployment.serve` makes a call and then drains until nothing is under way, so it is the schedule
that drains after every call (`serve_eq_run`).
-/

namespace Bulwark

/-! ## Drains in steps -/

namespace Limiter

/-- A session of which the log has been taken. -/
def Session.quiet (s : Session) : Session := { s with log := [] }

/-- The log has no part in a step of a drain. -/
theorem drainStep_quiet (keyPrefix : String) (now : Instant) (size : ℕ) (s : Session) :
    (drainStep keyPrefix now size s.quiet).2.quiet = (drainStep keyPrefix now size s).2.quiet := by
  unfold drainStep
  have hbacklog : s.quiet.backlog = s.backlog := rfl
  rw [hbacklog]
  cases s.backlog.pending with
  | nil => rfl
  | cons t rest =>
    obtain ⟨_, hwrite⟩ := writeTally_eq keyPrefix now t
      { s with backlog := { s.backlog with pending := rest } }
    obtain ⟨_, hwrite'⟩ := writeTally_eq keyPrefix now t
      { s.quiet with backlog := { s.backlog with pending := rest } }
    dsimp only
    rw [hwrite, hwrite']
    rfl

/-- A drain is so many steps of it. -/
theorem drain_eq_iterate (keyPrefix : String) (now : Instant) (s : Session) :
    ∃ n, (drain keyPrefix now s).2 =
      (fun t => (drainStep keyPrefix now Backlog.maxBatch t).2)^[n] s := by
  have hsteps : ∀ fuel s, ∃ n, (drainSteps keyPrefix now fuel s).2 =
      (fun t => (drainStep keyPrefix now Backlog.maxBatch t).2)^[n] s := by
    intro fuel
    induction fuel with
    | zero => exact fun s => ⟨0, rfl⟩
    | succ fuel ih =>
      intro s
      unfold drainSteps
      split
      · exact ⟨0, rfl⟩
      · obtain ⟨n, hn⟩ := ih (drainStep keyPrefix now Backlog.maxBatch s).2
        exact ⟨n + 1, hn⟩
  exact hsteps _ s

end Limiter

namespace Deployment

variable {α γ : Type}

/-! ## Moves -/

/-- What the limiter of a layer works on. -/
def limiterSession (d : Deployment α) (m : Member α) : Limiter.Session :=
  ⟨d.gate, m.breaker, m.backlog, ((d.ledgers[m.ledger]?).getD .zero).admission, []⟩

/-- What a limiter leaves behind. -/
def afterLimiter (d : Deployment α) (i : ℕ) (m : Member α) (t : Limiter.Session) :
    Deployment α := { d with
  gate := t.gate
  members := d.members.set i { m with breaker := t.breaker, backlog := t.backlog }
  ledgers := d.ledgers.set m.ledger
    { (d.ledgers[m.ledger]?).getD .zero with admission := t.admission } }

/-- A call of a limiter in a layer. -/
theorem limiting_apply (capacity : ℕ) (call : Limiter.Action γ) (s : Layer.Session) :
    Layer.limiting capacity call s =
      let r := call ⟨s.gate, s.breaker, s.backlog, s.counters.admission, []⟩
      if Backlog.maxCapacity < capacity ∧ ¬ r.2.backlog.queue.isEmpty then .error .queueOverflow
      else .ok (r.1, ⟨r.2.gate, r.2.breaker, r.2.backlog,
        { s.counters with admission := r.2.admission }, s.events ++ r.2.log.map .log⟩) := rfl

/-- Runs an action of one layer, and leaves its queue as it is then. -/
def act (d : Deployment α) (i : ℕ) (action : Layer α → Instant → Layer.Action γ) :
    Except Halt ((γ × List Event) × Deployment α) :=
  match d.members[i]? with
  | none => .error .noSuchLayer
  | some m => do
    let (answer, t) ← StateT.run (action m.layer d.clock)
      ⟨d.gate, m.breaker, m.backlog, (d.ledgers[m.ledger]?).getD .zero, []⟩
    .ok ((answer, t.events), { d with
      gate := t.gate
      members := d.members.set i { m with breaker := t.breaker, backlog := t.backlog }
      ledgers := d.ledgers.set m.ledger t.counters })

/-- Runs a call of the limiter of one layer, and leaves its queue as it is then. -/
def limiting (d : Deployment α) (i : ℕ)
    (call : LimiterSettings α → Instant → Limiter.Action γ) :
    Except Halt ((γ × List Event) × Deployment α) :=
  d.act i fun l now => Layer.limiting l.limiter.backlogCapacity (call l.limiter now)

/-- A call of a limiter works on what is its own, and halts only where its queue is impossible. -/
theorem limiting_eq {d : Deployment α} {i : ℕ} {m : Member α} (hm : d.members[i]? = some m)
    (call : LimiterSettings α → Instant → Limiter.Action γ) :
    d.limiting i call =
      let r := call m.layer.limiter d.clock (d.limiterSession m)
      if Backlog.maxCapacity < m.layer.limiter.backlogCapacity ∧ ¬ r.2.backlog.queue.isEmpty then
        .error .queueOverflow
      else .ok ((r.1, r.2.log.map .log), d.afterLimiter i m r.2) := by
  unfold limiting act
  rw [hm]
  show Except.bind (Layer.limiting _ _ _) _ = _
  rw [limiting_apply]
  dsimp only [limiterSession]
  split
  · rfl
  · rfl

/-- What a call of a limiter leaves, if it does not halt. -/
theorem limiting_cases {d e : Deployment α} {i : ℕ}
    {call : LimiterSettings α → Instant → Limiter.Action γ}
    (h : (d.limiting i call).map Prod.snd = .ok e) : ∃ m, d.members[i]? = some m ∧
      e = d.afterLimiter i m (call m.layer.limiter d.clock (d.limiterSession m)).2 := by
  cases hm : d.members[i]? with
  | none =>
    unfold limiting act at h
    rw [hm] at h
    cases h
  | some m =>
    refine ⟨m, rfl, ?_⟩
    rw [limiting_eq hm] at h
    dsimp only at h
    split at h
    · cases h
    · exact (Except.ok.inj h).symm

/-- A limiter finds what it has left. -/
theorem limiterSession_afterLimiter {d : Deployment α} {i : ℕ} {m : Member α}
    (hledger : m.ledger < d.ledgers.length) (t : Limiter.Session) :
    (d.afterLimiter i m t).limiterSession { m with breaker := t.breaker, backlog := t.backlog } =
      t.quiet := by
  unfold limiterSession afterLimiter
  dsimp only
  rw [List.getElem?_set_self hledger]
  rfl

/-- What a limiter leaves takes the place of what it has left before. -/
theorem afterLimiter_afterLimiter {d : Deployment α} {i : ℕ} {m : Member α}
    (hledger : m.ledger < d.ledgers.length) (t u : Limiter.Session) :
    (d.afterLimiter i m t).afterLimiter i { m with breaker := t.breaker, backlog := t.backlog } u =
      d.afterLimiter i m u := by
  unfold afterLimiter
  dsimp only
  rw [List.getElem?_set_self hledger, List.set_set, List.set_set]
  rfl

/-- Serving a layer is acting, with a drain at the end. -/
theorem serve_eq_act [Quantity α] [QuantityText α] (d : Deployment α) (i : ℕ)
    (action : Layer α → Instant → Layer.Action γ) :
    d.serve i action = d.act i (fun l now => do
      let answer ← action l now
      l.drain now
      pure answer) := rfl

/-- A move in a deployment. -/
inductive Move (α : Type) where
  /-- A call of the limiter of a layer. -/
  | limit (i : ℕ) (c : Limiter.Call α)
  /-- A step of the drain of a layer: a waiting tally is written, or a batch is taken of at most so
  many decisions. -/
  | drain (i size : ℕ)
  | clock (m : ClockMove)
  /-- Replaces the plan of failures, and switches the connection to the store. -/
  | failures (plan : List (Option StoreError)) (failing : Bool)
  /-- Somebody else's command to the store, past the gate. -/
  | others (c : Store.Command α)

/-- Whether a move is a step of a drain. -/
def Move.isDrain : Move α → Bool
  | .drain _ _ => true
  | _ => false

/-- A move that makes no call of the store fail. -/
def Move.Succeeds : Move α → Prop
  | .failures _ _ => False
  | _ => True

/-- A move in which nobody else writes the shared statistics. -/
def Move.Spares (keyPrefix : String) : Move α → Prop
  | .others c => c.Spares (IsStatistics keyPrefix)
  | _ => True

variable [Quantity α] [QuantityText α]

/-- Makes a move. -/
def move (d : Deployment α) : Move α → Except Halt (Deployment α)
  | .limit i c => (d.limiting i fun l now => Limiter.perform l now c).map Prod.snd
  | .drain i size =>
    (d.limiting i fun l now => Limiter.drainStep l.keyPrefix now size).map Prod.snd
  | .clock m => (m.apply d.clock).map fun clock => { d with clock }
  | .failures plan failing => .ok { d with gate := { d.gate with plan, failing } }
  | .others c =>
    .ok { d with gate := { d.gate with
      store := (d.gate.store.perform d.gate.position d.clock c).2 } }

/-- What becomes of decisions in a call of a limiter: those that the store makes are recorded, and
refused if they find the queue full. -/
def limited (d : Deployment α) (i : ℕ) (m : Member α) (c : Limiter.Call α) : Account :=
  let ds := Limiter.decisions m.layer.limiter d.clock c (d.limiterSession m)
  ⟨ds.map (i, ·), (Backlog.refusals m.layer.limiter.backlogCapacity m.backlog ds).map (i, ·), [], []⟩

/-- What becomes of decisions in a move. -/
def account (d : Deployment α) : Move α → Account
  | .limit i c => (d.members[i]?).elim .nothing (d.limited i · c)
  | .drain i _ => (d.members[i]?).elim .nothing fun m =>
    Limiter.drained m.layer.limiter.keyPrefix d.clock (d.limiterSession m)
  | .clock _ => .nothing
  | .failures _ _ => .nothing
  | .others _ => .nothing

/-- Makes moves in order, up to the first that halts. -/
def run (d : Deployment α) : List (Move α) → Except Halt (Deployment α × Account)
  | [] => .ok (d, .nothing)
  | m :: rest => do
    let e ← d.move m
    let (f, a) ← e.run rest
    .ok (f, (d.account m).add a)

/-! ## Serving as a schedule -/

/-- Steps of a drain in a row. -/
theorem run_drains {d : Deployment α} {i : ℕ} {m : Member α} (hm : d.members[i]? = some m)
    (hledger : m.ledger < d.ledgers.length)
    (hcapacity : m.layer.limiter.backlogCapacity ≤ Backlog.maxCapacity) (n : ℕ)
    (t : Limiter.Session) :
    ∃ a, (d.afterLimiter i m t).run (List.replicate n (.drain i Backlog.maxBatch)) =
      .ok (d.afterLimiter i m ((fun t => (Limiter.drainStep m.layer.limiter.keyPrefix d.clock
        Backlog.maxBatch t).2)^[n] t), a) := by
  induction n generalizing t with
  | zero => exact ⟨.nothing, rfl⟩
  | succ n ih =>
    have hi := (List.getElem?_eq_some_iff.mp hm).1
    have hm' : (d.afterLimiter i m t).members[i]? =
        some { m with breaker := t.breaker, backlog := t.backlog } :=
      List.getElem?_set_self hi
    have hmove : (d.afterLimiter i m t).move (.drain i Backlog.maxBatch) =
        .ok (d.afterLimiter i m (Limiter.drainStep m.layer.limiter.keyPrefix d.clock
          Backlog.maxBatch t).2) := by
      rw [move, limiting_eq hm']
      dsimp only
      rw [if_neg fun hlong => Nat.not_lt.mpr hcapacity hlong.1, limiterSession_afterLimiter hledger]
      show Except.ok _ = _
      rw [afterLimiter_afterLimiter hledger]
      show Except.ok (d.afterLimiter i m (Limiter.drainStep _ d.clock _ t.quiet).2.quiet) = _
      rw [Limiter.drainStep_quiet]
      rfl
    obtain ⟨a, hrest⟩ := ih (Limiter.drainStep m.layer.limiter.keyPrefix d.clock
          Backlog.maxBatch t).2
    rw [List.replicate_succ, run, hmove]
    show ∃ a, (Deployment.run _ _).bind _ = _
    rw [hrest]
    exact ⟨_, rfl⟩

/-- Serving a call of a limiter is the run that makes the call and then drains. -/
theorem serve_eq_run {d : Deployment α} {i : ℕ} {m : Member α} (hm : d.members[i]? = some m)
    (hledger : m.ledger < d.ledgers.length)
    (hcapacity : m.layer.limiter.backlogCapacity ≤ Backlog.maxCapacity) (c : Limiter.Call α) :
    ∃ r n a, d.serve i (fun l now => l.limit now c) = .ok r ∧
      d.run (.limit i c :: List.replicate n (.drain i Backlog.maxBatch)) = .ok (r.2, a) := by
  have hfits : ∀ p : Prop, ¬ (Backlog.maxCapacity < m.layer.limiter.backlogCapacity ∧ p) :=
    fun p hlong => Nat.not_lt.mpr hcapacity hlong.1
  let t := (Limiter.perform m.layer.limiter d.clock c (d.limiterSession m)).2
  obtain ⟨n, hdrain⟩ := Limiter.drain_eq_iterate m.layer.limiter.keyPrefix d.clock t.quiet
  obtain ⟨a, hdrains⟩ := run_drains hm hledger hcapacity n t.quiet
  have hmove : d.move (.limit i c) = .ok (d.afterLimiter i m t) := by
    rw [move, limiting_eq hm]
    dsimp only
    rw [if_neg (hfits _)]
    rfl
  have hserve : ∃ r, d.serve i (fun l now => l.limit now c) = .ok r ∧
      r.2 = d.afterLimiter i m (Limiter.drain m.layer.limiter.keyPrefix d.clock t.quiet).2 := by
    rw [serve_eq_act]
    unfold act
    rw [hm]
    unfold Layer.limit Layer.drain
    show ∃ r, ((Layer.limiting _ _ _).bind _).bind _ = _ ∧ _
    rw [limiting_apply]
    dsimp only
    rw [if_neg (hfits _)]
    show ∃ r, ((Layer.limiting _ _ _).bind _).bind _ = _ ∧ _
    rw [limiting_apply]
    dsimp only
    rw [if_neg (hfits _)]
    exact ⟨_, rfl, rfl⟩
  obtain ⟨r, hserve, hr⟩ := hserve
  refine ⟨r, n, (d.account (.limit i c)).add a, hserve, ?_⟩
  rw [run, hmove]
  show (Deployment.run _ _).bind _ = _
  rw [hr, hdrain, show d.afterLimiter i m t = d.afterLimiter i m t.quiet from rfl, hdrains]
  rfl

end Deployment
end Bulwark
