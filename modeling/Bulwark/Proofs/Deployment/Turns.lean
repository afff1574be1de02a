import Bulwark.Proofs.Limiter.Moves

/-!
# Runs of a deployment

A run of a deployment is a list of turns: calls of its layers, steps of the drains of their queues,
moves of the clock, and what others do at the gate and behind it.  A turn that halts is the last one.
`Deployment.play` gives a record of every turn made, with what it has answered and reported, and how
the run has ended.

A call leaves the queue to the shared statistics as it is then.  Draining it is a turn of its own, so
a run says when each queue is drained, and how far.
-/

namespace Bulwark.Deployment

variable {α β : Type}

/-- A turn of a run. -/
inductive Turn (α β : Type) where
  /-- A call of a layer.  Delays before its retries are spread by `samples`. -/
  | call (i : ℕ) (samples : ℕ → α) (c : Layer.Call α β)
  /-- A step of the drain of a layer: a waiting tally is written, or a batch is taken of at most so
  many decisions. -/
  | drain (i size : ℕ)
  | clock (m : ClockMove)
  /-- Replaces the plan of failures, and switches the connection to the store. -/
  | failures (plan : List (Option StoreError)) (failing : Bool)
  /-- Somebody else's command to the store, past the gate. -/
  | others (c : Store.Command α)

/-- A turn that has been made: what it has answered, if it was a call, and what it has reported. -/
structure Record (α β : Type) where
  turn : Turn α β
  reply : Option (Layer.Reply α β)
  events : List Event

/-- Whether a request was let in, or a token is revoked. -/
def Record.flag? (r : Record α β) : Option Bool :=
  match r.reply with
  | some (.limiter (.decided allowed)) => some allowed
  | some (.blacklist (.revoked revoked)) => some revoked
  | _ => none

/-- How a run ends: with the deployment after it, or at a turn that halts. -/
abbrev RunEnding (α β : Type) := Except (Turn α β × Halt) (Deployment α)

/-! ## What a layer works on -/

/-- What has an answer in another shape has an answer. -/
theorem exists_of_map_eq_ok {ε γ δ : Type} {x : Except ε γ} {f : γ → δ} {b : δ}
    (h : x.map f = .ok b) : ∃ a, x = .ok a ∧ f a = b := by
  cases x with
  | error e => cases h
  | ok a => exact ⟨a, rfl, Except.ok.inj h⟩

section Acting

variable {γ : Type} {d : Deployment α} {i : ℕ} {m : Member α}
  {action : Layer α → Instant → Layer.Action γ}

/-- What a layer works on. -/
def layerSession (d : Deployment α) (m : Member α) : Layer.Session :=
  ⟨d.gate, m.breaker, m.backlog, (d.ledgers[m.ledger]?).getD .zero, []⟩

/-- What a layer leaves behind. -/
def afterLayer (d : Deployment α) (i : ℕ) (m : Member α) (t : Layer.Session) : Deployment α := { d with
  gate := t.gate
  members := d.members.set i { m with breaker := t.breaker, backlog := t.backlog }
  ledgers := d.ledgers.set m.ledger t.counters }

theorem act_of_absent (h : d.members[i]? = none) : d.act i action = .error .noSuchLayer := by
  rw [act, h]

theorem act_eq (h : d.members[i]? = some m) :
    d.act i action = (action m.layer d.clock (d.layerSession m)).map fun r =>
      ((r.1, r.2.events), d.afterLayer i m r.2) := by
  rw [act, h]
  rfl

/-- A call of a blacklist in a layer. -/
theorem revoking_apply (call : Blacklist.Action γ) (s : Layer.Session) :
    Layer.revoking call s = (call ⟨s.gate, s.counters.revocation, s.events⟩).map fun r =>
      (r.1, { s with
        gate := r.2.gate
        counters := { s.counters with revocation := r.2.counts }
        events := r.2.events }) := rfl

end Acting

/-! ## Turns -/

variable [Quantity α] [QuantityText α]

/-- Takes a turn.  Gives the answer, the events and the deployment after it. -/
def take (d : Deployment α) :
    Turn α β → Except Halt ((Option (Layer.Reply α β) × List Event) × Deployment α)
  | .call i samples c =>
    (d.act i fun l now => l.perform now samples c).map fun r => ((some r.1.1, r.1.2), r.2)
  | .drain i size =>
    (d.limiting i fun l now => Limiter.drainStep l.keyPrefix now size).map fun r =>
      ((none, r.1.2), r.2)
  | .clock m => (m.apply d.clock).map fun clock => ((none, []), { d with clock })
  | .failures plan failing => .ok ((none, []), { d with gate := { d.gate with plan, failing } })
  | .others c => .ok ((none, []), { d with gate := { d.gate with
      store := (d.gate.store.perform d.gate.position d.clock c).2 } })

/-- Takes turns in order, up to one that halts. -/
def play (d : Deployment α) : List (Turn α β) → List (Record α β) × RunEnding α β
  | [] => ([], .ok d)
  | t :: rest =>
    match d.take t with
    | .error halt => ([], .error (t, halt))
    | .ok ((reply, events), e) =>
      let (records, ending) := e.play rest
      (⟨t, reply, events⟩ :: records, ending)

section Play

variable {d e : Deployment α} {t : Turn α β} {rest : List (Turn α β)}

theorem take_clock (d : Deployment α) (m : ClockMove) :
    d.take (.clock m : Turn α β) =
      (m.apply d.clock).map fun clock => ((none, []), { d with clock }) := rfl

theorem play_of_halt {halt : Halt} (h : d.take t = .error halt) :
    d.play (t :: rest) = ([], .error (t, halt)) := by
  rw [play, h]

theorem play_of_ok {reply : Option (Layer.Reply α β)} {events : List Event}
    (h : d.take t = .ok ((reply, events), e)) :
    d.play (t :: rest) = (⟨t, reply, events⟩ :: (e.play rest).1, (e.play rest).2) := by
  rw [play, h]

end Play

end Bulwark.Deployment
