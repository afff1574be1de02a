import Bulwark.Proofs.Accounts.Limiter
import Bulwark.Proofs.Accounts.Recovery
import Bulwark.Proofs.Accounts.Revocation
import Bulwark.Proofs.Deployment.Turns
import Bulwark.Proofs.Quantity.Fraction

/-!
# The accounts of a run

Layers that share a ledger count together.  `Deployment.chronicle` lists what their calls bring over
a run, in order, and at the end of the run the ledger accounts for it (`play_accounts`): nothing is
counted twice, nothing is left out, and nothing else is counted.  What the store fails to do, what
others do to it and how the queues are drained makes no difference.

The step is one turn (`take_follows`); the run is by induction on the turns.
-/

namespace Bulwark

/-! ## Layers -/

namespace Layer

variable {α β γ : Type}

/-- What the limiter of a layer works on. -/
def Session.limiter (s : Session) : Limiter.Session :=
  ⟨s.gate, s.breaker, s.backlog, s.counters.admission, []⟩

/-- What the recovery engine of a layer works on. -/
def Session.engine (s : Session) : Engine.Session := ⟨s.counters.recovery, s.events⟩

/-- What the blacklist of a layer works on. -/
def Session.blacklist (s : Session) : Blacklist.Session := ⟨s.gate, s.counters.revocation, s.events⟩

section Parts

variable {s : Session}

theorem limiting_follows {capacity : ℕ} {call : Limiter.Action γ} {os : List Occurrence}
    (h : Limiter.Counts s.limiter os (call s.limiter).2) :
    IfEnds (limiting capacity call) s fun _ t => s.counters.Follows os t.counters := by
  intro answer t hends
  rw [Deployment.limiting_apply] at hends
  dsimp only at hends
  split at hends
  · cases hends
  · obtain ⟨-, rfl⟩ := Prod.mk.inj (Except.ok.inj hends)
    exact h s.counters

theorem guarding_ifEnds {call : Engine.Action γ} {Q : γ → Session → Prop}
    (h : IfEnds call s.engine fun answer t => Q answer { s with
      counters := { s.counters with recovery := t.counts }
      events := t.events }) :
    IfEnds (guarding call) s Q := by
  intro answer t hends
  change (call s.engine).bind _ = _ at hends
  cases hcall : call s.engine with
  | error halt =>
    rw [hcall] at hends
    cases hends
  | ok p =>
    rw [hcall] at hends
    obtain ⟨rfl, rfl⟩ := Prod.mk.inj (Except.ok.inj hends)
    exact h _ _ hcall

theorem revoking_ifEnds {call : Blacklist.Action γ} {Q : γ → Session → Prop}
    (h : IfEnds call s.blacklist fun answer t => Q answer { s with
      gate := t.gate
      counters := { s.counters with revocation := t.counts }
      events := t.events }) :
    IfEnds (revoking call) s Q := by
  intro answer t hends
  rw [Deployment.revoking_apply] at hends
  obtain ⟨p, hcall, hp⟩ := Deployment.exists_of_map_eq_ok hends
  obtain ⟨rfl, rfl⟩ := Prod.mk.inj hp
  exact h _ _ hcall

end Parts

section Calls

variable [Quantity α] [QuantityText α] (l : Layer α) (now : Instant) (samples : ℕ → α)

/-- What a call brings that is counted, if it ends.  A layer that is switched off makes no
checks. -/
def occurrences (s : Session) : Call α β → List Occurrence
  | .check kind key =>
    if l.enabled then Limiter.answers l.limiter now (.check (dimension kind key)) s.limiter else []
  | .checkAll ip user endpoint =>
    if l.enabled then Limiter.answers l.limiter now (.checkAll ip user endpoint) s.limiter else []
  | .limiter call => Limiter.answers l.limiter now call s.limiter
  | .engine call =>
    match l.engine.perform now samples call s.engine with
    | .ok (reply, _) => if call.hasEnded reply then [.ended] else []
    | .error _ => []
  | .blacklist call =>
    match l.blacklist.perform now call s.blacklist with
    | .ok (reply, t) => l.blacklist.occurrences now s.blacklist call reply t
    | .error _ => []
  | .resetRecoveryCount => [.recoveryReset]
  | .resetCounters => [.reset]
  | _ => []

variable {s : Session}

theorem limit_follows (call : Limiter.Call α) :
    IfEnds (l.limit now call) s fun _ t =>
      s.counters.Follows (Limiter.answers l.limiter now call s.limiter) t.counters :=
  limiting_follows (Limiter.perform_counts l.limiter now call s.limiter)

theorem limitIfEnabled_follows (call : Limiter.Call α) :
    IfEnds (l.limitIfEnabled now call) s fun _ t => s.counters.Follows
      (if l.enabled then Limiter.answers l.limiter now call s.limiter else []) t.counters := by
  unfold limitIfEnabled
  split
  · exact limit_follows l now call
  · exact IfEnds.pure (.nothing _)

/-- A call counts what it brings, and nothing else. -/
theorem perform_follows (call : Call α β) :
    IfEnds (l.perform now samples call) s fun _ t =>
      s.counters.Follows (l.occurrences now samples s call) t.counters := by
  cases call with
  | check kind key => exact IfEnds.map (limitIfEnabled_follows l now _)
  | checkAll ip user endpoint => exact IfEnds.map (limitIfEnabled_follows l now _)
  | limiter call => exact IfEnds.map (limit_follows l now call)
  | engine call =>
    refine IfEnds.map (guarding_ifEnds fun reply t hends => ?_)
    show s.counters.Follows (match l.engine.perform now samples call s.engine with
      | .ok (reply, _) => if call.hasEnded reply then [.ended] else []
      | .error _ => []) _
    rw [hends]
    exact Engine.perform_counts l.engine now samples call reply t hends s.counters
  | blacklist call =>
    refine IfEnds.map (revoking_ifEnds fun reply t hends => ?_)
    show s.counters.Follows (match l.blacklist.perform now call s.blacklist with
      | .ok (reply, t) => l.blacklist.occurrences now s.blacklist call reply t
      | .error _ => []) _
    rw [hends]
    exact Blacklist.perform_counts l.blacklist now call reply t hends s.counters
  | resetRecoveryCount => exact IfEnds.modify_bind (IfEnds.pure (.recoveryReset _))
  | resetCounters => exact IfEnds.modify_bind (IfEnds.pure (.reset _))
  | resetBreaker => exact IfEnds.modify_bind (IfEnds.pure (.nothing _))
  | _ => exact IfEnds.map (IfEnds.get (.nothing _))

end Calls

end Layer

/-! ## Deployments -/

namespace Deployment

variable {α β γ : Type} {d e : Deployment α} {i k : ℕ} {c : Counters}

/-- What a layer leaves in a ledger: its own counters if it counts there. -/
theorem ledger_afterLayer {m : Member α} (hledger : d.ledgers[k]? = some c) (t : Layer.Session) :
    (d.afterLayer i m t).ledgers[k]? = some (if m.ledger = k then t.counters else c) := by
  show (d.ledgers.set m.ledger t.counters)[k]? = _
  rw [List.getElem?_set]
  obtain ⟨hlt, -⟩ := List.getElem?_eq_some_iff.mp hledger
  split
  · rename_i hk
    rw [hk, if_pos hlt]
  · exact hledger

/-- What an action of a layer brings to a ledger. -/
theorem act_follows {m : Member α} {action : Layer α → Instant → Layer.Action γ}
    {os : List Occurrence} {answer : γ × List Event} (hm : d.members[i]? = some m)
    (hledger : d.ledgers[k]? = some c)
    (haction : IfEnds (action m.layer d.clock) (d.layerSession m) fun _ t =>
      (d.layerSession m).counters.Follows os t.counters)
    (hends : d.act i action = .ok (answer, e)) :
    ∃ c', e.ledgers[k]? = some c' ∧ c.Follows (if m.ledger = k then os else []) c' := by
  rw [act_eq hm] at hends
  obtain ⟨⟨reply, t⟩, hreply, heq⟩ := exists_of_map_eq_ok hends
  obtain ⟨-, rfl⟩ := Prod.mk.inj heq
  refine ⟨_, ledger_afterLayer hledger t, ?_⟩
  split
  · rename_i hk
    have hcounters : (d.layerSession m).counters = c := by
      show (d.ledgers[m.ledger]?).getD .zero = c
      rw [hk, hledger]
      rfl
    have hfollows := haction _ _ hreply
    rwa [hcounters] at hfollows
  · exact .nothing c

section Turns

variable [Quantity α] [QuantityText α]

/-- What a turn brings that is counted in a ledger. -/
def occurrences (d : Deployment α) (k : ℕ) : Turn α β → List Occurrence
  | .call i samples call =>
    match d.members[i]? with
    | none => []
    | some m =>
      if m.ledger = k then m.layer.occurrences d.clock samples (d.layerSession m) call else []
  | _ => []

/-- What the turns of a run bring that is counted in a ledger, up to one that halts. -/
def chronicle (k : ℕ) : Deployment α → List (Turn α β) → List Occurrence
  | _, [] => []
  | d, t :: rest =>
    match d.take t with
    | .error _ => []
    | .ok (_, e) => d.occurrences k t ++ chronicle k e rest

/-- A turn changes a ledger by what it brings there, and by nothing else. -/
theorem take_follows {t : Turn α β} {answer : Option (Layer.Reply α β) × List Event}
    (hledger : d.ledgers[k]? = some c) (hends : d.take t = .ok (answer, e)) :
    ∃ c', e.ledgers[k]? = some c' ∧ c.Follows (d.occurrences k t) c' := by
  cases t with
  | call i samples call =>
    obtain ⟨⟨reply, _⟩, hact, heq⟩ := exists_of_map_eq_ok hends
    obtain ⟨-, rfl⟩ := Prod.mk.inj heq
    cases hm : d.members[i]? with
    | none =>
      rw [act_of_absent hm] at hact
      cases hact
    | some m =>
      have hfollows := act_follows hm hledger
        (Layer.perform_follows m.layer d.clock samples call) hact
      have hbrings : d.occurrences k (.call i samples call) = if m.ledger = k then
          m.layer.occurrences d.clock samples (d.layerSession m) call else [] := by
        simp only [occurrences, hm]
      rw [hbrings]
      exact hfollows
  | drain i size =>
    obtain ⟨⟨reply, _⟩, hact, heq⟩ := exists_of_map_eq_ok hends
    obtain ⟨-, rfl⟩ := Prod.mk.inj heq
    cases hm : d.members[i]? with
    | none =>
      rw [limiting, act_of_absent hm] at hact
      cases hact
    | some m =>
      -- what a drain writes has been counted before
      have hdrain : (Limiter.drainStep m.layer.limiter.keyPrefix d.clock size
          (d.layerSession m).limiter).2.admission = (d.layerSession m).limiter.admission :=
        (Limiter.drainStep_drains size _).admission
      have hfollows := act_follows hm hledger (Layer.limiting_follows (.nothing hdrain)) hact
      rw [ite_self] at hfollows
      exact hfollows
  | clock m =>
    rw [take_clock] at hends
    obtain ⟨clock, -, heq⟩ := exists_of_map_eq_ok hends
    obtain ⟨-, rfl⟩ := Prod.mk.inj heq
    exact ⟨c, hledger, .nothing c⟩
  | failures plan failing =>
    obtain ⟨-, rfl⟩ := Prod.mk.inj (Except.ok.inj hends)
    exact ⟨c, hledger, .nothing c⟩
  | others command =>
    obtain ⟨-, rfl⟩ := Prod.mk.inj (Except.ok.inj hends)
    exact ⟨c, hledger, .nothing c⟩

/-- A run changes a ledger by what it brings there, and by nothing else. -/
theorem play_follows (turns : List (Turn α β)) :
    ∀ {d : Deployment α} {c : Counters}, d.ledgers[k]? = some c → (d.play turns).2 = .ok e →
      ∃ c', e.ledgers[k]? = some c' ∧ c.Follows (d.chronicle k turns) c' := by
  induction turns with
  | nil =>
    intro d c hledger hends
    obtain rfl := Except.ok.inj hends
    exact ⟨c, hledger, .nothing c⟩
  | cons t rest ih =>
    intro d c hledger hends
    unfold chronicle
    cases htake : d.take t with
    | error halt =>
      rw [play_of_halt htake] at hends
      cases hends
    | ok r =>
      obtain ⟨⟨reply, events⟩, d'⟩ := r
      rw [play_of_ok htake] at hends
      obtain ⟨c', hledger', hturn⟩ := take_follows hledger htake
      obtain ⟨c'', hledger'', hrest⟩ := ih hledger' hends
      exact ⟨c'', hledger'', hturn.trans hrest⟩

/-- **Exact accounting.**  A run of any layers, of which some count in a ledger that starts at zero,
leaves there the numbers of what their calls have brought since the last reset, in 64 bits: the
answers of checks by kind and result and those given without the store, the operations and streams
that have ended, the revocations that were made, the keys that were deleted, and the lookups and
hits. -/
theorem play_accounts (hzero : d.ledgers[k]? = some .zero) (turns : List (Turn α β))
    (hends : (d.play turns).2 = .ok e) :
    ∃ c, e.ledgers[k]? = some c ∧ c.Accounts (d.chronicle k turns) := by
  obtain ⟨c, hledger, hfollows⟩ := play_follows turns hzero hends
  exact ⟨c, hledger, accounts_of_follows hfollows⟩

end Turns

/-- Two layers that count together, at a store that fails the first call. -/
def busyPair : Deployment ℚ :=
  .ofCopies ⟨0⟩ { Gate.opened (fun _ => 0) .empty with plan := [some (.unavailable "gone")] }
    { enabled := true
      limiter := .standard
      engine := ⟨⟨.generic, .backpressure, .streaming⟩, true⟩
      blacklist := ⟨"auth:blacklist:", .failClosed⟩ } 2 true

/-- A check that the store fails, a batch with a blank token in it, a lifting of what somebody else
has written, a lookup, a reset, an operation that fails, and a check that costs too much. -/
def busyRun : List (Turn ℚ Unit) :=
  let call (i : ℕ) (c : Layer.Call ℚ Unit) : Turn ℚ Unit := .call i (fun _ => 0) c
  [call 0 (.check .ip "203.0.113.7"),
    call 1 (.blacklist (.addEach ["token", " ", "another"] "stolen" 60)),
    .others (.set "auth:blacklist:odd" "no entry" none), call 0 (.blacklist (.remove "odd")),
    call 1 (.blacklist (.isRevoked "token")), call 0 .resetRecoveryCount,
    call 1 (.engine (.wrap ⟨"read", .generic, .degrade .data⟩
      (fun _ => ⟨none, .error (.validation "no")⟩) none)),
    call 0 (.limiter (.checkWith ⟨.user, "somebody"⟩ 1 1 1 2)), .drain 0 10]

/-- Both layers count in the one ledger. -/
theorem play_accounts_busyPair :
    let play := @play ℚ Unit _ Quantity.fractions
    let chronicle := @chronicle ℚ Unit _ Quantity.fractions 0 busyPair busyRun
    chronicle = [.answered .ip true false, .added, .added, .removed, .lookedUp true true,
      .recoveryReset, .ended, .answered .user false true] ∧
    ∃ e c, (play busyPair busyRun).2 = .ok e ∧ e.ledgers[0]? = some c ∧ c.Accounts chronicle := by
  intro play chronicle
  refine ⟨by decide +kernel, ?_⟩
  have hends : ((play busyPair busyRun).2.toOption).isSome = true := by decide +kernel
  cases hplay : (play busyPair busyRun).2 with
  | error halt =>
    rw [hplay] at hends
    cases hends
  | ok e =>
    obtain ⟨c, hledger, haccounts⟩ :=
      @play_accounts ℚ Unit busyPair e 0 _ Quantity.fractions rfl busyRun hplay
    exact ⟨e, c, rfl, hledger, haccounts⟩

end Deployment
end Bulwark
