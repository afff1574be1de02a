import Bulwark.Proofs.Deployment.Turns
import Bulwark.Proofs.Quantity.Fraction
import Bulwark.Proofs.Recovery.Once

/-!
# Layers that are switched off

A layer that is switched off lets every request in that it checks, and does nothing else about it.
Its operations come out as those of a layer that is on and starts them once, and its blacklist does
what it would do if the layer were on.

The comparison is between runs of two deployments that differ in one layer (`withLayer`).  As long as
the two layers agree on a turn, taking it and exchanging them can be done in either order
(`take_withLayer`), and so it is with a run (`play_withLayer`).  What a switch means follows by the
choice of the other layer (`play_switchedOff`).
-/

namespace Bulwark

variable {α β : Type}

/-! ## What a switch does to a layer -/

/-- A configuration makes a layer as soon as it has a failure mode and its policies make sense. -/
theorem Layer.ofConfiguration_eq_ok_iff [Quantity α] {c : Configuration α} {l : Layer α} :
    Layer.ofConfiguration c = .ok l ↔
      ∃ mode policies, c.failureMode = some mode ∧ c.retry.policies = .ok policies ∧
        l = ⟨c.enabled, c.limiter, ⟨policies, c.enabled⟩, ⟨c.blacklistPrefix, mode⟩⟩ := by
  unfold ofConfiguration
  constructor
  · intro h
    split at h
    · cases h
    · rename_i mode hmode
      split at h
      · cases h
      · rename_i policies hpolicies
        exact ⟨mode, policies, hmode, hpolicies, (Except.ok.inj h).symm⟩
  · rintro ⟨mode, policies, hmode, hpolicies, rfl⟩
    rw [hmode, hpolicies]

/-- Nothing is limited by a layer, and nothing is retried. -/
structure Layer.IsOff (l : Layer α) : Prop where
  enabled_eq : l.enabled = false
  retriesEnabled_eq : l.engine.retriesEnabled = false

/-- Layers that differ in the toggle and in their engines only. -/
structure Layer.SameStoreSide (l l' : Layer α) : Prop where
  limiter_eq : l.limiter = l'.limiter
  blacklist_eq : l.blacklist = l'.blacklist

section Configured

variable [Quantity α] {c : Configuration α} {off on : Layer α} {retry : RetrySettings α}

theorem Layer.isOff_of_configuration
    (h : Layer.ofConfiguration { c with enabled := false } = .ok off) : off.IsOff := by
  obtain ⟨mode, policies, -, -, rfl⟩ := Layer.ofConfiguration_eq_ok_iff.mp h
  exact ⟨rfl, rfl⟩

theorem Layer.sameStoreSide_of_configuration
    (hoff : Layer.ofConfiguration { c with enabled := false } = .ok off)
    (hon : Layer.ofConfiguration { c with enabled := true, retry } = .ok on) :
    on.SameStoreSide off := by
  obtain ⟨mode, _, hmode, -, rfl⟩ := Layer.ofConfiguration_eq_ok_iff.mp hoff
  obtain ⟨mode', _, hmode', -, rfl⟩ := Layer.ofConfiguration_eq_ok_iff.mp hon
  obtain rfl : mode = mode' := Option.some.inj (hmode.symm.trans hmode')
  exact ⟨rfl, rfl⟩

/-- A layer that is off could be on. -/
theorem Layer.exists_on (hoff : Layer.ofConfiguration { c with enabled := false } = .ok off) :
    ∃ on, Layer.ofConfiguration { c with enabled := true } = .ok on := by
  obtain ⟨mode, policies, hmode, hpolicies, -⟩ := Layer.ofConfiguration_eq_ok_iff.mp hoff
  exact ⟨_, Layer.ofConfiguration_eq_ok_iff.mpr ⟨mode, policies, hmode, hpolicies, rfl⟩⟩

/-- A layer that is off could be on and start every operation once. -/
theorem Layer.exists_on_once (hoff : Layer.ofConfiguration { c with enabled := false } = .ok off) :
    ∃ on, Layer.ofConfiguration { c with enabled := true, retry := c.retry.once } = .ok on ∧
      ∀ profile, (on.engine.policies.of profile).IsOnce := by
  obtain ⟨mode, policies, hmode, hpolicies, -⟩ := Layer.ofConfiguration_eq_ok_iff.mp hoff
  obtain ⟨policies', hpolicies', hone⟩ := RetrySettings.policies_once hpolicies
  exact ⟨_, Layer.ofConfiguration_eq_ok_iff.mpr ⟨mode, policies', hmode, hpolicies', rfl⟩, hone⟩

end Configured

/-! ## Calls -/

/-- Whether a call asks for admission. -/
def Layer.Call.isCheck : Layer.Call α β → Bool
  | .check _ _ => true
  | .checkAll _ _ _ => true
  | _ => false

/-- What a call has the engine guard, if it does. -/
def Layer.Call.guarded? : Layer.Call α β → Option OperationSpec
  | .engine c => c.spec?
  | _ => none

section Calls

variable [Quantity α] [QuantityText α] {off on : Layer α} {c : Layer.Call α β} (now : Instant)
  (samples : ℕ → α)

/-- A check of a layer that is off lets the request in, and does nothing else. -/
theorem Layer.IsOff.perform_check (h : off.IsOff) (hc : c.isCheck = true) :
    off.perform now samples c = pure (.limiter (.decided true)) := by
  cases c with
  | check kind key =>
    simp only [perform, limitIfEnabled, h.enabled_eq]
    rfl
  | checkAll ip user endpoint =>
    simp only [perform, limitIfEnabled, h.enabled_eq]
    rfl
  | _ => cases hc

/-- Layers that differ in nothing else do the same in all calls but checks, if operations are
started once. -/
theorem Layer.SameStoreSide.perform_eq (h : on.SameStoreSide off) (hc : c.isCheck = false)
    (hon : ∀ spec ∈ c.guarded?, on.engine.StartsOnce spec.profile)
    (hoff : ∀ spec ∈ c.guarded?, off.engine.StartsOnce spec.profile) :
    on.perform now samples c = off.perform now samples c := by
  cases c with
  | check kind key => cases hc
  | checkAll ip user endpoint => cases hc
  | limiter c => simp only [perform, limit, h.limiter_eq]
  | engine c =>
    simp only [perform]
    rw [Engine.perform_eq_of_startsOnce now samples samples hon hoff]
  | blacklist c => simp only [perform, h.blacklist_eq]
  | _ => rfl

/-- An engine in a layer that starts an operation once never pauses. -/
theorem Layer.pauses_of_perform {c : Engine.Call β} {s t : Layer.Session}
    {reply : Layer.Reply α β} (hone : ∀ spec ∈ c.spec?, off.engine.StartsOnce spec.profile)
    (h : off.perform now samples (.engine c) s = .ok (reply, t)) :
    ∃ r, reply = .engine r ∧ r.pauses = [] := by
  obtain ⟨r, _, hcalled, h⟩ := exists_of_bind_apply_eq_ok h
  obtain ⟨⟨_, _⟩, hperformed, hcalled⟩ := exists_of_bind_eq_ok hcalled
  obtain ⟨rfl, -⟩ := Prod.mk.inj (Except.ok.inj hcalled)
  exact ⟨_, congrArg Prod.fst (Except.ok.inj h).symm, Engine.pauses_of_perform hone hperformed⟩

end Calls

namespace Deployment

/-! ## Layers in a deployment -/

/-- An item is exchanged and another one changed, in either order. -/
theorem modify_set {γ : Type} (xs : List γ) (i j : ℕ) (a : γ) (f : γ → γ) :
    (xs.set j a).modify i f = (xs.modify i f).set j (if i = j then f a else a) := by
  apply List.ext_getElem?
  intro k
  simp only [List.getElem?_modify, List.getElem?_set, List.length_modify]
  by_cases hj : j = k
  · subst hj
    by_cases hlt : j < xs.length <;> by_cases hi : i = j <;> simp [hlt, hi]
  · simp [hj]

/-- A layer of a deployment. -/
def layer? (d : Deployment α) (i : ℕ) : Option (Layer α) := (d.members[i]?).map Member.layer

/-- The deployment with another layer in the place of one. -/
def withLayer (d : Deployment α) (i : ℕ) (l : Layer α) : Deployment α :=
  { d with members := d.members.modify i fun m => { m with layer := l } }

section Layers

variable {d : Deployment α} {i j : ℕ} {m : Member α} {l : Layer α}

theorem layer?_of_member (h : d.members[i]? = some m) : d.layer? i = some m.layer := by
  rw [layer?, h, Option.map_some]

/-- A layer may be put in its own place. -/
theorem withLayer_self (h : d.layer? i = some l) : d.withLayer i l = d := by
  have hmembers : d.members.modify i (fun m => { m with layer := l }) = d.members := by
    refine List.ext_getElem? fun j => ?_
    rw [List.getElem?_modify]
    by_cases hij : i = j
    · obtain ⟨m, hm, rfl⟩ := Option.map_eq_some_iff.mp h
      rw [← hij, hm]
      simp
    · simp [hij]
  rw [withLayer, hmembers]

theorem member_withLayer (h : d.members[j]? = some m) :
    (d.withLayer i l).members[j]? = some (if i = j then { m with layer := l } else m) := by
  show (d.members.modify i _)[j]? = _
  rw [List.getElem?_modify, h]
  rfl

/-- A layer that has done nothing leaves everything as it is. -/
theorem afterLayer_layerSession (h : d.members[i]? = some m) :
    d.afterLayer i m (d.layerSession m) = d := by
  have hmembers : d.members.set i m = d.members := by
    obtain ⟨hi, rfl⟩ := List.getElem?_eq_some_iff.mp h
    exact List.set_getElem_self hi
  have hledgers : d.ledgers.set m.ledger ((d.ledgers[m.ledger]?).getD .zero) = d.ledgers := by
    cases hledger : d.ledgers[m.ledger]? with
    | none => exact List.set_eq_of_length_le (List.getElem?_eq_none_iff.mp hledger)
    | some c =>
      obtain ⟨hi, rfl⟩ := List.getElem?_eq_some_iff.mp hledger
      exact List.set_getElem_self hi
  unfold afterLayer layerSession
  rw [hledgers]
  dsimp only
  rw [hmembers]

/-- What a layer leaves behind has no part in which layer it is. -/
theorem afterLayer_withLayer (m : Member α) (t : Layer.Session) :
    (d.withLayer i l).afterLayer j (if i = j then { m with layer := l } else m) t =
      (d.afterLayer j m t).withLayer i l := by
  unfold afterLayer withLayer
  dsimp only
  rw [modify_set]
  by_cases hij : i = j
  · simp only [if_pos hij]
  · simp only [if_neg hij]

/-- No layer turns into another one. -/
theorem layer?_afterLayer (h : d.members[j]? = some m) (t : Layer.Session) (i : ℕ) :
    (d.afterLayer j m t).layer? i = d.layer? i := by
  unfold layer? afterLayer
  dsimp only
  rw [List.getElem?_set]
  split
  · rename_i hij
    subst hij
    obtain ⟨hlt, rfl⟩ := List.getElem?_eq_some_iff.mp h
    simp [hlt]
  · rfl

end Layers

/-! ## Turns -/

/-- Whether a turn is a check of layer `i`. -/
def Turn.isCheckOf (i : ℕ) : Turn α β → Bool
  | .call j _ c => j == i && c.isCheck
  | _ => false

/-- What a turn has layer `i` guard, if it does. -/
def Turn.guarded? (i : ℕ) : Turn α β → Option OperationSpec
  | .call j _ c => if j = i then c.guarded? else none
  | _ => none

section Acting

variable {γ : Type} {d e : Deployment α} {i j : ℕ} {action : Layer α → Instant → Layer.Action γ}

theorem layer?_act {r : γ × List Event} (h : d.act j action = .ok (r, e)) (i : ℕ) :
    e.layer? i = d.layer? i := by
  cases hm : d.members[j]? with
  | none =>
    rw [act_of_absent hm] at h
    cases h
  | some m =>
    rw [act_eq hm] at h
    obtain ⟨acted, -, hleft⟩ := exists_of_map_eq_ok h
    obtain ⟨-, rfl⟩ := Prod.mk.inj hleft
    exact layer?_afterLayer hm acted.2 i

/-- A layer acts as another one in its place if that is to do the same. -/
theorem act_withLayer {off on : Layer α} (hlayer : d.layer? i = some off)
    (action : Layer α → Instant → Layer.Action γ)
    (hsame : j = i → action on d.clock = action off d.clock) :
    (d.withLayer i on).act j action = (d.act j action).map fun r => (r.1, r.2.withLayer i on) := by
  cases hm : d.members[j]? with
  | none =>
    have hm' : (d.withLayer i on).members[j]? = none := by
      show (d.members.modify i _)[j]? = none
      rw [List.getElem?_modify, hm]
      rfl
    rw [act_of_absent hm, act_of_absent hm']
    rfl
  | some m =>
    have haction : action (if i = j then { m with layer := on } else m).layer d.clock =
        action m.layer d.clock := by
      split
      · rename_i hij
        subst hij
        obtain rfl : m.layer = off := Option.some.inj ((layer?_of_member hm).symm.trans hlayer)
        exact hsame rfl
      · rfl
    have hsession : (d.withLayer i on).layerSession (if i = j then { m with layer := on } else m) =
        d.layerSession m := by
      split <;> rfl
    rw [act_eq hm, act_eq (member_withLayer hm), hsession]
    show (action _ d.clock _).map _ = _
    rw [haction]
    cases action m.layer d.clock (d.layerSession m) with
    | error halt => rfl
    | ok acted =>
      show Except.ok ((acted.1, acted.2.events), _) = Except.ok ((acted.1, acted.2.events), _)
      rw [afterLayer_withLayer]

end Acting

section Taking

variable [Quantity α] [QuantityText α] {d e : Deployment α} {i : ℕ} {off on : Layer α}
  {t : Turn α β}

/-- No turn exchanges a layer. -/
theorem layer?_take {shown : Option (Layer.Reply α β) × List Event}
    (h : d.take t = .ok (shown, e)) (i : ℕ) : e.layer? i = d.layer? i := by
  cases t with
  | call j samples c =>
    obtain ⟨acted, hacted, hleft⟩ := exists_of_map_eq_ok h
    obtain ⟨-, rfl⟩ := Prod.mk.inj hleft
    exact layer?_act hacted i
  | drain j size =>
    obtain ⟨acted, hacted, hleft⟩ := exists_of_map_eq_ok h
    obtain ⟨-, rfl⟩ := Prod.mk.inj hleft
    exact layer?_act hacted i
  | clock m =>
    obtain ⟨clock, -, hleft⟩ := exists_of_map_eq_ok h
    obtain ⟨-, rfl⟩ := Prod.mk.inj hleft
    rfl
  | failures plan failing =>
    obtain ⟨-, rfl⟩ := Prod.mk.inj (Except.ok.inj h)
    rfl
  | others c =>
    obtain ⟨-, rfl⟩ := Prod.mk.inj (Except.ok.inj h)
    rfl

/-- A check of a layer that is off lets the request in, and does nothing else: no call reaches the
store, no counter moves and nothing is reported. -/
theorem take_check (hlayer : d.layer? i = some off) (hoff : off.IsOff)
    (ht : t.isCheckOf i = true) : d.take t = .ok ((some (.limiter (.decided true)), []), d) := by
  cases t with
  | call j samples c =>
    obtain ⟨hj, hc⟩ := Bool.and_eq_true_iff.mp ht
    obtain rfl : j = i := beq_iff_eq.mp hj
    obtain ⟨m, hm, rfl⟩ := Option.map_eq_some_iff.mp hlayer
    rw [take, act_eq hm, hoff.perform_check d.clock samples hc]
    show Except.ok ((some (Layer.Reply.limiter (.decided true)), []),
      d.afterLayer j m (d.layerSession m)) = _
    rw [afterLayer_layerSession hm]
  | _ => cases ht

/-- A turn with another layer `on` in the place of layer `i` answers and reports what the turn itself
does, and leaves the same but for the layer. -/
def TakesAs (d : Deployment α) (i : ℕ) (on : Layer α) (t : Turn α β) : Prop :=
  (d.withLayer i on).take t = (d.take t).map fun r => (r.1, r.2.withLayer i on)

/-- A turn is the same with another layer, if the two agree on it. -/
theorem take_withLayer (hlayer : d.layer? i = some off) (hside : on.SameStoreSide off)
    (hcheck : t.isCheckOf i = false)
    (hon : ∀ spec ∈ t.guarded? i, on.engine.StartsOnce spec.profile)
    (hoff : ∀ spec ∈ t.guarded? i, off.engine.StartsOnce spec.profile) : d.TakesAs i on t := by
  unfold TakesAs
  cases t with
  | call j samples c =>
    have hperform : j = i → on.perform d.clock samples c = off.perform d.clock samples c := by
      rintro rfl
      have hc : c.isCheck = false := by simpa [Turn.isCheckOf] using hcheck
      rw [Turn.guarded?, if_pos rfl] at hon hoff
      exact hside.perform_eq d.clock samples hc hon hoff
    have hact := act_withLayer hlayer (fun l now => l.perform now samples c) hperform
    rw [take, take, hact]
    cases d.act j fun l now => l.perform now samples c <;> rfl
  | drain j size =>
    let step (l : Layer α) (now : Instant) : Layer.Action Unit :=
      Layer.limiting l.limiter.backlogCapacity (Limiter.drainStep l.limiter.keyPrefix now size)
    have hstep : on.limiter = off.limiter → step on d.clock = step off d.clock := fun h => by
      simp only [step, h]
    have hact := act_withLayer (j := j) hlayer step fun _ => hstep hside.limiter_eq
    rw [take, take, limiting, limiting, hact]
    cases d.act j step <;> rfl
  | clock m =>
    rw [take_clock, take_clock]
    show (m.apply d.clock).map _ = _
    cases m.apply d.clock <;> rfl
  | failures plan failing => rfl
  | others c => rfl

end Taking

/-! ## Runs -/

/-- A run with another layer `on` in the place of layer `i`, and without its checks, shows what the
run itself shows of the other turns, and leaves the same but for the layer. -/
def PlaysAs [Quantity α] [QuantityText α] (d : Deployment α) (i : ℕ) (on : Layer α)
    (turns : List (Turn α β)) : Prop :=
  (d.withLayer i on).play (turns.filter (!·.isCheckOf i)) =
    ((d.play turns).1.filter (!·.turn.isCheckOf i), (d.play turns).2.map (·.withLayer i on))

section Playing

variable [Quantity α] [QuantityText α] {d : Deployment α} {i : ℕ} {off on : Layer α}
  {turns : List (Turn α β)}

theorem play_withLayer (hlayer : d.layer? i = some off) (hisoff : off.IsOff)
    (hside : on.SameStoreSide off)
    (honce : ∀ t ∈ turns, ∀ spec ∈ t.guarded? i, on.engine.StartsOnce spec.profile) :
    d.PlaysAs i on turns := by
  -- the run without the checks stays where it is while a check is made
  induction turns generalizing d with
  | nil => rfl
  | cons t rest ih =>
    have hrest : ∀ t' ∈ rest, ∀ spec ∈ t'.guarded? i, on.engine.StartsOnce spec.profile :=
      fun t' ht' => honce t' (List.mem_cons_of_mem t ht')
    cases hcheck : t.isCheckOf i with
    | true =>
      have htake := take_check hlayer hisoff hcheck
      have hlater : d.PlaysAs i on rest := ih hlayer hrest
      unfold PlaysAs at hlater ⊢
      rw [play_of_ok htake]
      simp only [List.filter_cons, hcheck, Bool.not_true, Bool.false_eq_true, if_false]
      exact hlater
    | false =>
      have htake := take_withLayer hlayer hside hcheck (honce t List.mem_cons_self)
        fun spec _ => Engine.startsOnce_of_disabled hisoff.retriesEnabled_eq spec.profile
      unfold TakesAs at htake
      have hkept : (t :: rest).filter (!·.isCheckOf i) = t :: rest.filter (!·.isCheckOf i) := by
        simp [hcheck]
      unfold PlaysAs
      rw [hkept]
      cases hend : d.take t with
      | error halt =>
        rw [hend] at htake
        rw [play_of_halt hend, play_of_halt htake]
        rfl
      | ok r =>
        obtain ⟨⟨reply, events⟩, e⟩ := r
        rw [hend] at htake
        have hlater : e.PlaysAs i on rest := ih ((layer?_take hend i).trans hlayer) hrest
        unfold PlaysAs at hlater
        rw [play_of_ok hend, play_of_ok htake, hlater]
        simp [hcheck]

/-- Every record of a run is of a turn that the deployment has taken, with the same layers. -/
theorem exists_take_of_mem_play {r : Record α β} (h : r ∈ (d.play turns).1) :
    ∃ d' e : Deployment α, (∀ i, d'.layer? i = d.layer? i) ∧
      d'.take r.turn = .ok ((r.reply, r.events), e) := by
  induction turns generalizing d with
  | nil => cases h
  | cons t rest ih =>
    cases htake : d.take t with
    | error halt =>
      rw [play_of_halt htake] at h
      cases h
    | ok shown =>
      obtain ⟨⟨reply, events⟩, e⟩ := shown
      rw [play_of_ok htake] at h
      rcases List.mem_cons.mp h with rfl | hrest
      · exact ⟨d, e, fun _ => rfl, htake⟩
      · obtain ⟨d', e', hlayers, htake'⟩ := ih hrest
        exact ⟨d', e', fun i => (hlayers i).trans (layer?_take htake i), htake'⟩

/-- A run that goes to its end exchanges no layer. -/
theorem layer?_play {e : Deployment α} (h : (d.play turns).2 = .ok e) (i : ℕ) :
    e.layer? i = d.layer? i := by
  induction turns generalizing d with
  | nil =>
    obtain rfl : d = e := Except.ok.inj h
    rfl
  | cons t rest ih =>
    cases htake : d.take t with
    | error halt =>
      rw [play_of_halt htake] at h
      cases h
    | ok shown =>
      rw [play_of_ok htake] at h
      exact (ih h).trans (layer?_take htake i)

/-! ### A layer that is off -/

/-- All its checks are answered alike, and report nothing. -/
theorem answered_of_mem_play (hlayer : d.layer? i = some off) (hoff : off.IsOff)
    {r : Record α β} (hr : r ∈ (d.play turns).1) (hcheck : r.turn.isCheckOf i = true) :
    r.reply = some (.limiter (.decided true)) ∧ r.events = [] := by
  obtain ⟨d', e, hlayers, htake⟩ := exists_take_of_mem_play hr
  have hchecked := take_check ((hlayers i).trans hlayer) hoff hcheck
  rw [htake] at hchecked
  obtain ⟨hshown, -⟩ := Prod.mk.inj (Except.ok.inj hchecked)
  exact Prod.mk.inj hshown

/-- Its checks may be left out of a run. -/
theorem play_without_checks (hlayer : d.layer? i = some off) (hoff : off.IsOff) :
    d.play (turns.filter (!·.isCheckOf i)) =
      ((d.play turns).1.filter (!·.turn.isCheckOf i), (d.play turns).2) := by
  have hself : d.PlaysAs i off turns := play_withLayer hlayer hoff ⟨rfl, rfl⟩
    fun t _ spec _ => Engine.startsOnce_of_disabled hoff.retriesEnabled_eq spec.profile
  have hending : (d.play turns).2.map (·.withLayer i off) = (d.play turns).2 := by
    cases hend : (d.play turns).2 with
    | error halted => rfl
    | ok e =>
      show Except.ok (e.withLayer i off) = .ok e
      rw [withLayer_self ((layer?_play hend i).trans hlayer)]
  unfold PlaysAs at hself
  rw [withLayer_self hlayer, hending] at hself
  exact hself

/-- Its engine never pauses. -/
theorem pauses_of_mem_play (hlayer : d.layer? i = some off) (hoff : off.IsOff)
    {r : Record α β} (hr : r ∈ (d.play turns).1) {samples : ℕ → α} {call : Engine.Call β}
    (hturn : r.turn = .call i samples (.engine call)) :
    ∃ reply, r.reply = some (.engine reply) ∧ reply.pauses = [] := by
  obtain ⟨d', e, hlayers, htake⟩ := exists_take_of_mem_play hr
  obtain ⟨m, hm, rfl⟩ := Option.map_eq_some_iff.mp ((hlayers i).trans hlayer)
  rw [hturn, take, act_eq hm] at htake
  obtain ⟨acted, hacted, hleft⟩ := exists_of_map_eq_ok htake
  obtain ⟨performed, hperformed, rfl⟩ := exists_of_map_eq_ok hacted
  obtain ⟨reply, hreply, hpauses⟩ := Layer.pauses_of_perform (c := call) d'.clock samples
    (fun spec _ => Engine.startsOnce_of_disabled hoff.retriesEnabled_eq spec.profile) hperformed
  obtain ⟨hshown, -⟩ := Prod.mk.inj hleft
  refine ⟨reply, ?_, hpauses⟩
  rw [← (Prod.mk.inj hshown).1, ← hreply]

end Playing

/-! ## What a switch means -/

section Switched

variable [Quantity α] [QuantityText α]

/-- What shows in a run when layer `i` is off, and but for that as a configuration says. -/
structure SwitchedOff (c : Configuration α) (d : Deployment α) (i : ℕ) (turns : List (Turn α β)) :
    Prop where
  /-- A check lets the request in.  The store is not called, nothing is counted or reported, and the
  queue and the breaker are as before. -/
  take_eq : ∀ t : Turn α β, t.isCheckOf i = true →
    d.take t = .ok ((some (.limiter (.decided true)), []), d)
  /-- It does so at any time. -/
  admits : ∀ r ∈ (d.play turns).1, r.turn.isCheckOf i = true →
    r.reply = some (.limiter (.decided true)) ∧ r.events = []
  /-- No other turn notices the checks. -/
  unnoticed : d.play (turns.filter (!·.isCheckOf i)) =
    ((d.play turns).1.filter (!·.turn.isCheckOf i), (d.play turns).2)
  /-- No operation is paused. -/
  unpaused : ∀ r ∈ (d.play turns).1, ∀ samples call, r.turn = .call i samples (.engine call) →
    ∃ reply, r.reply = some (.engine reply) ∧ reply.pauses = []
  /-- Wherever a run has come to, an operation goes as it would with a layer that is on, whatever the
  policies of that layer are, if they allow the operation one attempt and no pause before it. -/
  guards : ∀ retry on, Layer.ofConfiguration { c with enabled := true, retry } = .ok on →
    ∀ (e : Deployment α) samples (call : Engine.Call β), e.layer? i = d.layer? i →
      (∀ spec ∈ call.spec?, (on.engine.policies.of spec.profile).IsOnce) →
        e.TakesAs i on (.call i samples (.engine call))
  /-- So does the whole run, if it is so with all that is guarded. -/
  plays_once : ∀ retry on, Layer.ofConfiguration { c with enabled := true, retry } = .ok on →
    (∀ t ∈ turns, ∀ spec ∈ t.guarded? i, (on.engine.policies.of spec.profile).IsOnce) →
      d.PlaysAs i on turns
  exists_once : ∃ retry on, Layer.ofConfiguration { c with enabled := true, retry } = .ok on ∧
    ∀ profile, (on.engine.policies.of profile).IsOnce
  /-- Wherever a run has come to, the blacklist does what it would do if this very layer were on: it
  answers and reports the same, and leaves the same in the store and in the counters. -/
  revokes : ∀ on, Layer.ofConfiguration { c with enabled := true } = .ok on →
    ∀ (e : Deployment α) samples call, e.layer? i = d.layer? i →
      e.TakesAs i on (.call i samples (.blacklist call) : Turn α β)
  /-- Where nothing is guarded, the whole run goes as it would if this very layer were on. -/
  plays_on : ∀ on, Layer.ofConfiguration { c with enabled := true } = .ok on →
    (∀ t ∈ turns, t.guarded? i = none) → d.PlaysAs i on turns
  exists_on : ∃ on, Layer.ofConfiguration { c with enabled := true } = .ok on

/-- **The toggle.**  A layer that is switched off makes no checks, starts operations once, and
revokes as ever. -/
theorem play_switchedOff {c : Configuration α} {d : Deployment α} {i : ℕ} {off : Layer α}
    (hoff : Layer.ofConfiguration { c with enabled := false } = .ok off)
    (hlayer : d.layer? i = some off) (turns : List (Turn α β)) : SwitchedOff c d i turns := by
  have hisoff : off.IsOff := Layer.isOff_of_configuration hoff
  have honce : ∀ profile, off.engine.StartsOnce profile :=
    Engine.startsOnce_of_disabled hisoff.retriesEnabled_eq
  constructor
  case take_eq => exact fun t ht => take_check hlayer hisoff ht
  case admits => exact fun r hr hcheck => answered_of_mem_play hlayer hisoff hr hcheck
  case unnoticed => exact play_without_checks hlayer hisoff
  case unpaused => exact fun r hr samples call hturn => pauses_of_mem_play hlayer hisoff hr hturn
  case guards =>
    intro retry on hon e samples call he hpolicies
    refine take_withLayer (he.trans hlayer) (Layer.sameStoreSide_of_configuration hoff hon)
      (Bool.and_false _) ?_ fun spec _ => honce spec.profile
    intro spec hspec _
    rw [Turn.guarded?, if_pos rfl] at hspec
    exact hpolicies spec hspec
  case plays_once =>
    intro retry on hon hpolicies
    exact play_withLayer hlayer hisoff (Layer.sameStoreSide_of_configuration hoff hon)
      fun t ht spec hspec _ => hpolicies t ht spec hspec
  case exists_once =>
    obtain ⟨on, hon, hpolicies⟩ := Layer.exists_on_once hoff
    exact ⟨_, on, hon, hpolicies⟩
  case revokes =>
    intro on hon e samples call he
    refine take_withLayer (he.trans hlayer) (Layer.sameStoreSide_of_configuration hoff hon)
      (Bool.and_false _) ?_ fun spec _ => honce spec.profile
    intro spec hspec
    rw [Turn.guarded?, if_pos rfl] at hspec
    cases hspec
  case plays_on =>
    intro on hon hnone
    refine play_withLayer hlayer hisoff (Layer.sameStoreSide_of_configuration hoff hon) ?_
    intro t ht spec hspec
    rw [hnone t ht] at hspec
    cases hspec
  case exists_on => exact Layer.exists_on hoff

end Switched

/-! ## A layer that nobody has switched on -/

/-- A configuration that leaves everything as it is, with the failure mode chosen. -/
def closedConfiguration : Configuration ℚ :=
  { (.standard : Configuration ℚ) with failureMode := some .failClosed }

/-- Its layer, switched off. -/
def quietLayer : Layer ℚ where
  enabled := false
  limiter := .standard
  engine := ⟨⟨.generic, .backpressure, .streaming⟩, false⟩
  blacklist := ⟨"auth:blacklist:", .failClosed⟩

/-- That layer at a store which fails the first call. -/
def quietDeployment : Deployment ℚ :=
  .ofCopies ⟨0⟩ { Gate.opened (fun _ => 0) .empty with plan := [some (.unavailable "gone")] }
    quietLayer 1 false

/-- Checks, a token that is revoked at the second try, and an operation that always fails. -/
def quietRun : List (Turn ℚ Unit) :=
  let call (c : Layer.Call ℚ Unit) : Turn ℚ Unit := .call 0 (fun _ => 0) c
  [call (.check .ip "203.0.113.7"), call (.blacklist (.addOrLog "token" "stolen" 60)),
    call (.blacklist (.addOrLog "token" "stolen" 60)), call (.checkAll "203.0.113.7" none "/login"),
    call (.engine (.wrap ⟨"read", .generic, .degrade .data⟩
      (fun _ => ⟨none, .error (.transient "busy")⟩) none)),
    call (.blacklist (.isRevoked "token"))]

/-- The operation is started once, and the store called by the blacklist alone. -/
theorem play_switchedOff_quietRun :
    let play := @play ℚ Unit _ Quantity.fractions
    Layer.ofConfiguration { closedConfiguration with enabled := false } = .ok quietLayer ∧
      quietDeployment.layer? 0 = some quietLayer ∧
      (play quietDeployment quietRun).1.filterMap Record.flag? = [true, false, true, true, true] ∧
      ((play quietDeployment quietRun).2.toOption.map fun e =>
        (e.gate.calls, e.ledgers.map (·.recovery.totalAttempts))) = some (2, [1]) ∧
      @SwitchedOff ℚ Unit _ Quantity.fractions closedConfiguration quietDeployment 0 quietRun := by
  intro play
  have hoff : Layer.ofConfiguration { closedConfiguration with enabled := false } =
      .ok quietLayer :=
    Layer.ofConfiguration_eq_ok_iff.mpr ⟨.failClosed, _, rfl, by decide +kernel, rfl⟩
  have hlayer : quietDeployment.layer? 0 = some quietLayer := rfl
  refine ⟨hoff, hlayer, by decide +kernel, by decide +kernel, ?_⟩
  exact @play_switchedOff ℚ Unit _ Quantity.fractions _ _ _ _ hoff hlayer quietRun

end Deployment
end Bulwark
