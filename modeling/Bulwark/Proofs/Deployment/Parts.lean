import Bulwark.Proofs.Deployment.Turns
import Bulwark.Proofs.Limiter.Confined
import Bulwark.Proofs.Revocation.Confined

/-!
# The parts of a layer that use the store

Admission and revocation share a store, and each of them keeps its own keys there.  Beside them,
admission has the breakers, the queues to the shared statistics and a count of its own, and
revocation has a count of its own.  What one part goes by is what the other leaves alone, so turns of
the one do nothing to turns of the other (`take_confined`).
-/

namespace Bulwark

/-! ## Parts -/

/-- A part of a layer that uses the store. -/
inductive Part where
  | admission
  | revocation
  deriving DecidableEq

namespace Part

/-- The other part. -/
def other : Part → Part
  | .admission => .revocation
  | .revocation => .admission

@[simp]
theorem other_other (p : Part) : p.other.other = p := by cases p <;> rfl

/-- What a part has to do with the breaker of a layer. -/
def breaker : Part → Breaker → Breaker
  | .admission, b => b
  | .revocation, _ => .fresh

/-- What a part has to do with the queue of a layer. -/
def backlog : Part → Backlog → Backlog
  | .admission, m => m
  | .revocation, _ => .empty

/-- What a part counts. -/
def ledger : Part → Counters → Counters
  | .admission, c => { Counters.zero with admission := c.admission }
  | .revocation, c => { Counters.zero with revocation := c.revocation }

/-- What a part has to do with a layer at work. -/
def member {α : Type} (p : Part) (m : Member α) : Member α :=
  { m with breaker := p.breaker m.breaker, backlog := p.backlog m.backlog }

/-- What the keys of a part start with. -/
def keyPrefix {α : Type} (p : Part) (l : Layer α) : String :=
  match p with
  | .admission => l.limiter.keyPrefix
  | .revocation => l.blacklist.keyPrefix

end Part

/-- Which keys belong to which part, where none belongs to both. -/
structure Parting where
  keys : Part → String → Prop
  apart : ∀ p key, keys p key → ¬ keys p.other key

namespace Parting

variable {α : Type} (k : Parting)

/-- The keys of a layer belong to its parts. -/
def Covers (l : Layer α) : Prop :=
  ∀ p key, Text.startsWith (Part.keyPrefix p l) key = true → k.keys p key

/-- Sessions of a layer that a part cannot tell apart, but for the events. -/
structure Sees (p : Part) (s s' : Layer.Session) : Prop where
  gate : Gate.Alike (¬ k.keys p ·) s.gate s'.gate
  breaker : p.breaker s.breaker = p.breaker s'.breaker
  backlog : p.backlog s.backlog = p.backlog s'.backlog
  ledger : p.ledger s.counters = p.ledger s'.counters

variable {k} {p : Part}

theorem Sees.refl {s : Layer.Session} (hopen : s.gate.IsOpen) : k.Sees p s s :=
  ⟨.refl hopen, rfl, rfl, rfl⟩

theorem Sees.trans {s t u : Layer.Session} (h : k.Sees p s t) (h' : k.Sees p t u) : k.Sees p s u :=
  ⟨h.gate.trans h'.gate, h.breaker.trans h'.breaker, h.backlog.trans h'.backlog,
    h.ledger.trans h'.ledger⟩

/-- What only the keys of one part reach is the same to the other. -/
theorem alike_other {g g' : Gate} (h : Gate.Alike (k.keys p) g g') :
    Gate.Alike (¬ k.keys p.other ·) g g' :=
  ⟨h.isOpen, h.isOpen', h.position_eq, fun key hkey => h.agree key fun hmine =>
    hkey fun hother => k.apart p key hmine hother⟩

/-! ## Calls of layers -/

variable (k p) in
/-- The calls of a part go by what is its own, and leave alone what the other part goes by. -/
def layerBorder : Border Layer.Session where
  same s s' := k.Sees p s s' ∧ s.events = s'.events
  reaches s t := s.gate.IsOpen → k.Sees p.other s t
  refl _ hopen := .refl hopen
  trans h h' hopen := (h hopen).trans (h' (h hopen).gate.isOpen')

section Layers

variable {γ : Type}

theorem limiting_confined {call : Limiter.Action γ} (capacity : ℕ)
    (hcall : Confined (Limiter.border (k.keys .admission)) (Limiter.lift call)) :
    Confined (k.layerBorder .admission) (Layer.limiting capacity call) where
  congr := fun s s' ⟨hsees, hevents⟩ => by
    have hbreaker : s.breaker = s'.breaker := hsees.breaker
    have hbacklog : s.backlog = s'.backlog := hsees.backlog
    have hcount : s.counters.admission = s'.counters.admission := congrArg (·.admission) hsees.ledger
    have hcalls := (hcall.congr ⟨s.gate, s.breaker, s.backlog, s.counters.admission, []⟩
      ⟨s'.gate, s'.breaker, s'.backlog, s'.counters.admission, []⟩
      ⟨hsees.gate, by rw [hbreaker, hbacklog, hcount]; rfl⟩).of_ok
    rw [Deployment.limiting_apply, Deployment.limiting_apply]
    generalize call ⟨s.gate, s.breaker, s.backlog, s.counters.admission, []⟩ = r at hcalls ⊢
    generalize call ⟨s'.gate, s'.breaker, s'.backlog, s'.counters.admission, []⟩ = r' at hcalls ⊢
    obtain ⟨answer, g, breaker, backlog, count, log⟩ := r
    obtain ⟨answer', g', breaker', backlog', count', log'⟩ := r'
    obtain ⟨rfl, hgate, hrest⟩ := hcalls
    obtain ⟨-, rfl, rfl, rfl, rfl⟩ := Limiter.Session.mk.inj hrest
    dsimp only
    split
    · exact .halt .queueOverflow
    · exact .answer _ ⟨⟨hgate, rfl, rfl, rfl⟩, by rw [hevents]⟩
  reaches := fun s a t h hopen => by
    rw [Deployment.limiting_apply] at h
    dsimp only at h
    split at h
    · cases h
    · obtain ⟨_, rfl⟩ := Prod.mk.inj (Except.ok.inj h)
      have hgate := (hcall.reaches ⟨s.gate, s.breaker, s.backlog, s.counters.admission, []⟩ _ _
        rfl hopen).1
      exact ⟨alike_other hgate, rfl, rfl, rfl⟩

theorem revoking_confined {call : Blacklist.Action γ}
    (hcall : Confined (Blacklist.border (k.keys .revocation)) call) :
    Confined (k.layerBorder .revocation) (Layer.revoking call) where
  congr := fun s s' ⟨hsees, hevents⟩ => by
    have hcount : s.counters.revocation = s'.counters.revocation :=
      congrArg (·.revocation) hsees.ledger
    have hcalls := hcall.congr ⟨s.gate, s.counters.revocation, s.events⟩
      ⟨s'.gate, s'.counters.revocation, s'.events⟩ ⟨hsees.gate, by rw [hcount, hevents]; rfl⟩
    rw [Deployment.revoking_apply, Deployment.revoking_apply]
    generalize call ⟨s.gate, s.counters.revocation, s.events⟩ = r at hcalls ⊢
    generalize call ⟨s'.gate, s'.counters.revocation, s'.events⟩ = r' at hcalls ⊢
    cases hcalls with
    | halt e => exact .halt e
    | @answer answer t t' hsame =>
      obtain ⟨g, count, events⟩ := t
      obtain ⟨g', count', events'⟩ := t'
      obtain ⟨hgate, hrest⟩ := hsame
      obtain ⟨-, rfl, rfl⟩ := Blacklist.Session.mk.inj hrest
      exact .answer answer ⟨⟨hgate, rfl, rfl, rfl⟩, rfl⟩
  reaches := fun s a t h hopen => by
    rw [Deployment.revoking_apply] at h
    obtain ⟨r, hcalled, hleft⟩ := Deployment.exists_of_map_eq_ok h
    obtain ⟨-, rfl⟩ := Prod.mk.inj hleft
    have hgate := (hcall.reaches _ _ _ hcalled hopen).1
    exact ⟨alike_other hgate, rfl, rfl, rfl⟩

end Layers

section Calls

variable [Quantity α] [QuantityText α] {l : Layer α} (hcovers : k.Covers l) (now : Instant)
include hcovers

theorem limit_confined (c : Limiter.Call α) :
    Confined (k.layerBorder .admission) (l.limit now c) :=
  limiting_confined _ (Limiter.perform_confined (hcovers .admission) now c)

theorem limitIfEnabled_confined (c : Limiter.Call α) :
    Confined (k.layerBorder .admission) (l.limitIfEnabled now c) := by
  unfold Layer.limitIfEnabled
  split
  · exact limit_confined hcovers now c
  · exact Confined.pure _

end Calls

end Parting

/-- The part that a call of a layer belongs to, if it uses the store. -/
def Layer.Call.part? {α β : Type} : Layer.Call α β → Option Part
  | .check _ _ => some .admission
  | .checkAll _ _ _ => some .admission
  | .limiter _ => some .admission
  | .blacklist _ => some .revocation
  | _ => none

namespace Parting

variable {α β : Type} [Quantity α] [QuantityText α] {k : Parting} {p : Part} {l : Layer α}

/-- A call of a part keeps to its side. -/
theorem perform_confined (hcovers : k.Covers l) (now : Instant) (samples : ℕ → α)
    {c : Layer.Call α β} (hc : c.part? = some p) :
    Confined (k.layerBorder p) (l.perform now samples c) := by
  cases c with
  | check kind key =>
    cases hc
    exact (limitIfEnabled_confined hcovers now _).map
  | checkAll ip user endpoint =>
    cases hc
    exact (limitIfEnabled_confined hcovers now _).map
  | limiter c =>
    cases hc
    exact (limit_confined hcovers now c).map
  | blacklist c =>
    cases hc
    exact (revoking_confined (Blacklist.perform_confined (hcovers .revocation) now c)).map
  | _ => cases hc

end Parting

/-! ## Turns -/

namespace Parting

variable {α : Type} (k : Parting)

/-- The keys of all layers belong to their parts. -/
def Holds (d : Deployment α) : Prop := ∀ m ∈ d.members, k.Covers m.layer

/-- Deployments that a part cannot tell apart. -/
structure SeesAll (p : Part) (d d' : Deployment α) : Prop where
  clock_eq : d.clock = d'.clock
  gate : Gate.Alike (¬ k.keys p ·) d.gate d'.gate
  members_eq : d.members.map p.member = d'.members.map p.member
  ledgers_eq : d.ledgers.map p.ledger = d'.ledgers.map p.ledger

variable {k} {p : Part} {d d' e : Deployment α}

theorem SeesAll.refl (hopen : d.gate.IsOpen) : k.SeesAll p d d := ⟨rfl, .refl hopen, rfl, rfl⟩

theorem SeesAll.symm (h : k.SeesAll p d d') : k.SeesAll p d' d :=
  ⟨h.clock_eq.symm, h.gate.symm, h.members_eq.symm, h.ledgers_eq.symm⟩

theorem SeesAll.trans (h : k.SeesAll p d d') (h' : k.SeesAll p d' e) : k.SeesAll p d e :=
  ⟨h.clock_eq.trans h'.clock_eq, h.gate.trans h'.gate, h.members_eq.trans h'.members_eq,
    h.ledgers_eq.trans h'.ledgers_eq⟩

/-- The layers are the same, and so are their prefixes. -/
theorem SeesAll.holds (h : k.SeesAll p d d') (hholds : k.Holds d) : k.Holds d' := by
  intro m hm
  have hmem : p.member m ∈ d.members.map p.member := by
    rw [h.members_eq]
    exact List.mem_map_of_mem hm
  obtain ⟨m', hm', heq⟩ := List.mem_map.mp hmem
  have hlayer : m'.layer = m.layer :=
    show (p.member m').layer = (p.member m).layer from congrArg Member.layer heq
  rw [← hlayer]
  exact hholds m' hm'

variable (k p) in
/-- Turns of a part go by what is its own, and leave alone what the other part goes by. -/
def border : Border (Deployment α) where
  same d d' := k.Holds d ∧ k.SeesAll p d d'
  reaches d e := k.Holds d → d.gate.IsOpen → k.SeesAll p.other d e
  refl _ _ hopen := .refl hopen
  trans h h' hholds hopen :=
    let first := h hholds hopen
    first.trans (h' (first.holds hholds) first.gate.isOpen')

/-- An item that looks like the one before may be put in its place. -/
theorem map_set_of_eq {γ δ : Type} {f : γ → δ} {l : List γ} {i : ℕ} {a : γ}
    (h : ∀ b, l[i]? = some b → f a = f b) : (l.set i a).map f = l.map f := by
  refine List.ext_getElem? fun j => ?_
  rw [List.getElem?_map, List.getElem?_map, List.getElem?_set]
  split
  · rename_i hj
    subst hj
    cases hb : l[i]? with
    | none => simp [List.getElem?_eq_none_iff.mp hb]
    | some b => simp [(List.getElem?_eq_some_iff.mp hb).1, h b hb]
  · rfl

section Acting

variable {i : ℕ} {m m' : Member α}

theorem Holds.afterLayer (h : k.Holds d) (hm : d.members[i]? = some m) (t : Layer.Session) :
    k.Holds (d.afterLayer i m t) := by
  intro m' hm'
  rcases List.mem_or_eq_of_mem_set hm' with hold | rfl
  · exact h m' hold
  · exact h m (List.mem_of_getElem? hm)

theorem SeesAll.member (h : k.SeesAll p d d') (hm : d.members[i]? = some m)
    (hm' : d'.members[i]? = some m') : p.member m = p.member m' := by
  have hmembers := congrArg (·[i]?) h.members_eq
  simp only [List.getElem?_map, hm, hm', Option.map_some, Option.some.injEq] at hmembers
  exact hmembers

theorem SeesAll.layer_eq (h : k.SeesAll p d d') (hm : d.members[i]? = some m)
    (hm' : d'.members[i]? = some m') : m.layer = m'.layer :=
  show (p.member m).layer = (p.member m').layer from congrArg Member.layer (h.member hm hm')

theorem SeesAll.ledger_eq (h : k.SeesAll p d d') (hm : d.members[i]? = some m)
    (hm' : d'.members[i]? = some m') : m.ledger = m'.ledger :=
  show (p.member m).ledger = (p.member m').ledger from congrArg Member.ledger (h.member hm hm')

theorem SeesAll.ledger (h : k.SeesAll p d d') (j : ℕ) :
    p.ledger ((d.ledgers[j]?).getD .zero) = p.ledger ((d'.ledgers[j]?).getD .zero) := by
  have hledgers := congrArg (fun l => (l[j]?).getD (p.ledger .zero)) h.ledgers_eq
  simp only [List.getElem?_map, Option.getD_map] at hledgers
  exact hledgers

/-- Layers of deployments that a part cannot tell apart work on sessions that it cannot. -/
theorem SeesAll.layerSession (h : k.SeesAll p d d') (hm : d.members[i]? = some m)
    (hm' : d'.members[i]? = some m') : k.Sees p (d.layerSession m) (d'.layerSession m') := by
  have hmember := h.member hm hm'
  have hledger : m.ledger = m'.ledger := h.ledger_eq hm hm'
  refine ⟨h.gate, congrArg Member.breaker hmember, congrArg Member.backlog hmember, ?_⟩
  show p.ledger ((d.ledgers[m.ledger]?).getD .zero) = p.ledger ((d'.ledgers[m'.ledger]?).getD .zero)
  rw [hledger]
  exact h.ledger m'.ledger

theorem SeesAll.afterLayer (h : k.SeesAll p d d') (hm : d.members[i]? = some m)
    (hm' : d'.members[i]? = some m') {t t' : Layer.Session} (ht : k.Sees p t t') :
    k.SeesAll p (d.afterLayer i m t) (d'.afterLayer i m' t') where
  clock_eq := h.clock_eq
  gate := ht.gate
  members_eq := by
    have hmember := h.member hm hm'
    show (d.members.set i _).map p.member = (d'.members.set i _).map p.member
    rw [List.map_set, List.map_set, h.members_eq]
    congr 1
    show ({ p.member m with breaker := p.breaker t.breaker, backlog := p.backlog t.backlog } :
      Member α) = { p.member m' with breaker := p.breaker t'.breaker,
                                     backlog := p.backlog t'.backlog }
    rw [hmember, ht.breaker, ht.backlog]
  ledgers_eq := by
    have hledger : m.ledger = m'.ledger := h.ledger_eq hm hm'
    show (d.ledgers.set m.ledger t.counters).map p.ledger =
      (d'.ledgers.set m'.ledger t'.counters).map p.ledger
    rw [List.map_set, List.map_set, h.ledgers_eq, hledger, ht.ledger]

/-- A layer that leaves alone what a part goes by. -/
theorem SeesAll.afterLayer_self (hm : d.members[i]? = some m) {t : Layer.Session}
    (ht : k.Sees p (d.layerSession m) t) : k.SeesAll p d (d.afterLayer i m t) where
  clock_eq := rfl
  gate := ht.gate
  members_eq := by
    refine (map_set_of_eq fun m' hm' => ?_).symm
    obtain rfl := Option.some.inj (hm.symm.trans hm')
    show ({ p.member m with breaker := p.breaker t.breaker, backlog := p.backlog t.backlog } :
      Member α) = p.member m
    rw [← ht.breaker, ← ht.backlog]
    rfl
  ledgers_eq := by
    refine (map_set_of_eq fun c hc => ?_).symm
    have hledger := ht.ledger
    unfold Deployment.layerSession at hledger
    rw [hc] at hledger
    exact hledger.symm

variable {γ : Type}

/-- Acting keeps to a side as soon as the actions of the layers do. -/
theorem act_confined {action : Layer α → Instant → Layer.Action γ}
    (haction : ∀ l now, k.Covers l → Confined (k.layerBorder p) (action l now)) (i : ℕ) :
    Confined (k.border p) fun d => d.act i action where
  congr := fun d d' ⟨hholds, hsees⟩ => by
    cases hm : d.members[i]? with
    | none =>
      have hm' : d'.members[i]? = none := by
        have hmembers := congrArg (·[i]?) hsees.members_eq
        simpa [hm] using hmembers
      rw [Deployment.act_of_absent hm, Deployment.act_of_absent hm']
      exact .halt .noSuchLayer
    | some m =>
      obtain ⟨m', hm'⟩ : ∃ m', d'.members[i]? = some m' := by
        have hmembers := congrArg (·[i]?) hsees.members_eq
        cases hm' : d'.members[i]? with
        | none => simp [hm, hm'] at hmembers
        | some m' => exact ⟨m', rfl⟩
      have hcovers : k.Covers m.layer := hholds m (List.mem_of_getElem? hm)
      have hactions := (haction m.layer d.clock hcovers).congr _ _
        ⟨hsees.layerSession hm hm', rfl⟩
      rw [Deployment.act_eq hm, Deployment.act_eq hm', ← hsees.layer_eq hm hm', ← hsees.clock_eq]
      generalize action m.layer d.clock (d.layerSession m) = r at hactions ⊢
      generalize action m.layer d.clock (d'.layerSession m') = r' at hactions ⊢
      cases hactions with
      | halt e => exact .halt e
      | @answer answer t t' ht =>
        obtain ⟨hsame, hevents⟩ := ht
        show SameEnd _ (.ok ((answer, t.events), _)) (.ok ((answer, t'.events), _))
        rw [hevents]
        exact .answer _ ⟨hholds.afterLayer hm t, hsees.afterLayer hm hm' hsame⟩
  reaches := fun d r e h hholds hopen => by
    cases hm : d.members[i]? with
    | none =>
      rw [Deployment.act_of_absent hm] at h
      cases h
    | some m =>
      have hcovers : k.Covers m.layer := hholds m (List.mem_of_getElem? hm)
      rw [Deployment.act_eq hm] at h
      obtain ⟨acted, hacted, hleft⟩ := Deployment.exists_of_map_eq_ok h
      obtain ⟨-, rfl⟩ := Prod.mk.inj hleft
      exact .afterLayer_self hm ((haction m.layer d.clock hcovers).reaches _ _ _ hacted hopen)

end Acting

end Parting

/-- The part that a turn belongs to, if it uses the store. -/
def Deployment.Turn.part? {α β : Type} : Deployment.Turn α β → Option Part
  | .call _ _ c => c.part?
  | .drain _ _ => some .admission
  | _ => none

namespace Parting

variable {α β : Type} [Quantity α] [QuantityText α] {k : Parting} {p : Part}

/-- A turn of a part keeps to its side. -/
theorem take_confined {t : Deployment.Turn α β} (ht : t.part? = some p) :
    Confined (k.border p) fun d => d.take t := by
  cases t with
  | call i samples c =>
    exact (act_confined (fun l now hcovers => perform_confined hcovers now samples ht) i).mapped
      fun r => (some r.1, r.2)
  | drain i size =>
    cases ht
    exact (act_confined (fun l now hcovers =>
      limiting_confined _ (Limiter.drainStep_confined (hcovers .admission) now size)) i).mapped
        fun r => (none, r.2)
  | clock m => cases ht
  | failures plan failing => cases ht
  | others c => cases ht

/-- A move of the clock is the same to both parts. -/
theorem clock_congr {d d' : Deployment α} (h : (k.border p).same d d') (m : ClockMove) :
    SameEnd (k.border p).same (d.take (.clock m : Deployment.Turn α β)) (d'.take (.clock m)) := by
  obtain ⟨hholds, hsees⟩ := h
  rw [Deployment.take_clock, Deployment.take_clock, ← hsees.clock_eq]
  cases m.apply d.clock with
  | error halt => exact .halt halt
  | ok clock => exact .answer _ ⟨hholds, rfl, hsees.gate, hsees.members_eq, hsees.ledgers_eq⟩

end Parting
end Bulwark
