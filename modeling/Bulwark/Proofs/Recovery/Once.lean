import Bulwark.Recovery.Call
import Bulwark.Proofs.Recovery.Subscriptions

/-!
# Operations that are started once

An engine that retries nothing starts an operation once and at once, and so does one that retries
where the policy allows one attempt and no pause before it (`Engine.StartsOnce`).  The course of the
operation is then its only attempt, or its only subscription.  Nothing else of the policy has a part
in it, and no sample that spreads delays, so two such engines do the same
(`Engine.perform_eq_of_startsOnce`), and they never pause (`Engine.pauses_of_perform`).

Whatever policies a configuration makes, it makes such ones too (`RetrySettings.policies_once`).
-/

namespace Bulwark

/-- A policy that allows one attempt, and no pause before it. -/
structure RetryPolicy.IsOnce {α : Type} (p : RetryPolicy α) : Prop where
  maxAttempts_eq : p.maxAttempts = 1
  preDelay_eq : p.preDelay = .zero

/-! ## Configurations with such policies -/

section Configured

variable {α : Type} [Quantity α]

/-- Parameters that make a policy make one of a single attempt. -/
theorem RetryPolicy.make_one {n : ℕ} {initialDelay maxDelay : Duration} {jitter : α}
    {retryable : List FaultClass} {p : RetryPolicy α}
    (h : RetryPolicy.make n initialDelay maxDelay jitter retryable = .ok p) :
    RetryPolicy.make 1 initialDelay maxDelay jitter retryable =
      .ok { p with maxAttempts := 1 } := by
  unfold make at h ⊢
  rw [if_neg Nat.one_ne_zero]
  split_ifs at h ⊢
  obtain rfl := Except.ok.inj h
  rfl

/-- The changes that leave a policy one attempt and no pause before it. -/
def RetryOverrides.once (o : RetryOverrides α) : RetryOverrides α :=
  { o with maxAttempts := some 1, preDelayMs := some 0 }

theorem RetryOverrides.resolve_once {o : RetryOverrides α} {profile : RetryProfile}
    {p : RetryPolicy α} (h : o.resolve profile = .ok p) :
    ∃ p', o.once.resolve profile = .ok p' ∧ p'.IsOnce := by
  unfold resolve at h ⊢
  dsimp only at h
  split at h
  · rename_i made hmade
    refine ⟨{ made with maxAttempts := 1, preDelay := .ofMillis 0 }, ?_, rfl, rfl⟩
    unfold once
    dsimp only [Option.getD_some, Option.map_some]
    rw [RetryPolicy.make_one hmade]
  · cases h

/-- The changes that leave every policy one attempt and no pause before it. -/
def RetrySettings.once (s : RetrySettings α) : RetrySettings α :=
  ⟨s.generic.once, s.backpressure.once, s.streaming.once⟩

theorem RetrySettings.policies_once {s : RetrySettings α} {ps : RetryPolicies α}
    (h : s.policies = .ok ps) :
    ∃ ps', s.once.policies = .ok ps' ∧ ∀ profile, (ps'.of profile).IsOnce := by
  obtain ⟨generic, hgeneric, h⟩ := exists_of_bind_eq_ok h
  obtain ⟨backpressure, hbackpressure, h⟩ := exists_of_bind_eq_ok h
  obtain ⟨streaming, hstreaming, h⟩ := exists_of_bind_eq_ok h
  obtain ⟨generic', hgeneric', hone⟩ := RetryOverrides.resolve_once hgeneric
  obtain ⟨backpressure', hbackpressure', hone'⟩ := RetryOverrides.resolve_once hbackpressure
  obtain ⟨streaming', hstreaming', hone''⟩ := RetryOverrides.resolve_once hstreaming
  refine ⟨⟨generic', backpressure', streaming'⟩, ?_, ?_⟩
  · unfold policies once
    rw [hgeneric', hbackpressure', hstreaming']
    rfl
  · intro profile
    cases profile with
    | generic => exact hone
    | backpressure => exact hone'
    | streaming => exact hone''

end Configured

/-! ## Courses with one start -/

namespace Course

variable {α β γ : Type}

/-- The course of an operation that is started once. -/
def single (a : Attempt β) : Course Empty β := ⟨a.happenings, 1, .ofResult a.result⟩

/-- The course of a stream that is subscribed to once. -/
def singleSubscription (s : List (Attempt β)) : Course β Unit :=
  ⟨.start :: (listen 0 s).1, 1, endOf (listen 0 s).2.2⟩

/-- A fault that is heard counts. -/
theorem listen_fault_pos {s : List (Attempt β)} {f : Fault} (faults : ℕ)
    (h : (listen faults s).2.2 = some f) : 0 < (listen faults s).2.1 := by
  induction s generalizing faults with
  | nil => cases h
  | cons a rest ih =>
    unfold listen at h ⊢
    cases hresult : a.result with
    | ok item =>
      rw [hresult] at h
      exact ih 0 h
    | error f' => exact Nat.succ_pos faults

/-- A stream that may fault once is not subscribed to anew. -/
theorem ofSubscriptions_one [Quantity α] (policy : RetryPolicy α) (samples : ℕ → α)
    (operation : String) (subscriptions : List (List (Attempt β))) :
    ofSubscriptions policy samples operation 1 0 0 subscriptions =
      singleSubscription (subscriptions.headD []) := by
  cases subscriptions with
  | nil => rfl
  | cons s rest =>
    have hpos := fun f => listen_fault_pos (s := s) (f := f) 0
    unfold ofSubscriptions singleSubscription
    rw [List.headD_cons]
    rcases hlisten : listen 0 s with ⟨hs, faults, _ | f⟩ <;> rw [hlisten] at hpos
    · rfl
    · -- the fault itself is the one that the limit allows
      have hfaults : ¬ faults < 1 := Nat.not_lt.mpr (hpos f rfl)
      simp only [hfaults, decide_false, Bool.and_false, Bool.false_eq_true, if_false]
      rfl

/-! ### Courses without a pause -/

theorem pausesOf_append (hs hs' : List (Happening β)) :
    pausesOf (hs ++ hs') = pausesOf hs ++ pausesOf hs' := List.filterMap_append

/-- What stops early pauses no more. -/
theorem pausesOf_eq_nil_of_isPrefix {hs hs' : List (Happening β)} (h : hs <+: hs')
    (hnone : pausesOf hs' = []) : pausesOf hs = [] := by
  have hpauses : pausesOf hs <+: pausesOf hs' := h.filterMap _
  rw [hnone] at hpauses
  exact List.prefix_nil.mp hpauses

theorem pausesOf_work (a : Attempt β) : pausesOf (a.work : List (Happening γ)) = [] := by
  unfold Attempt.work
  cases a.takes <;> rfl

theorem pausesOf_single (a : Attempt β) : pausesOf (single a).happenings = [] := pausesOf_work a

theorem pausesOf_listen (s : List (Attempt β)) (faults : ℕ) :
    pausesOf (listen faults s).1 = [] := by
  induction s generalizing faults with
  | nil => rfl
  | cons a rest ih =>
    unfold listen
    cases a.result with
    | ok item =>
      show pausesOf (a.work ++ .deliver item :: (listen 0 rest).1) = []
      rw [pausesOf_append, pausesOf_work]
      exact ih 0
    | error f => exact pausesOf_work a

theorem pausesOf_singleSubscription (s : List (Attempt β)) :
    pausesOf (singleSubscription s).happenings = [] := pausesOf_listen s 0

end Course

/-! ## Engines that start operations once -/

/-- A call that has an answer has been made in its two parts. -/
theorem exists_of_bind_apply_eq_ok {σ γ δ : Type} {x : StateT σ (Except Halt) γ}
    {f : γ → StateT σ (Except Halt) δ} {s s' : σ} {answer : δ}
    (h : (x >>= f) s = .ok (answer, s')) :
    ∃ first t, x s = .ok (first, t) ∧ f first t = .ok (answer, s') := by
  obtain ⟨⟨first, t⟩, hfirst, hrest⟩ :=
    exists_of_bind_eq_ok (x := x s) (f := fun p => f p.1 p.2) h
  exact ⟨first, t, hfirst, hrest⟩

namespace Engine

variable {α β : Type} {e e' : Engine α} {spec : OperationSpec}

/-- Operations of a profile are started once, and at once. -/
def StartsOnce (e : Engine α) (profile : RetryProfile) : Prop :=
  e.retriesEnabled = true → (e.policies.of profile).IsOnce

theorem startsOnce_of_disabled (h : e.retriesEnabled = false) (profile : RetryProfile) :
    e.StartsOnce profile := fun htrue => absurd htrue (Bool.eq_false_iff.mp h)

section Courses

variable (h : e.StartsOnce spec.profile)
include h

theorem StartsOnce.attemptLimit_eq : e.attemptLimit (e.policies.of spec.profile) = 1 := by
  unfold attemptLimit
  split
  · exact (h ‹_›).maxAttempts_eq
  · rfl

theorem StartsOnce.pauseBefore_eq :
    e.pauseBefore (β := β) (e.policies.of spec.profile) = [] := by
  unfold pauseBefore
  split
  · rw [(h ‹_›).preDelay_eq]
    rfl
  · rfl

variable [Quantity α]

theorem StartsOnce.wrapCourse_eq (samples : ℕ → α) (attempt : ℕ → Attempt β) :
    e.wrapCourse spec samples attempt = .single (attempt 0) := by
  unfold wrapCourse
  dsimp only
  rw [h.attemptLimit_eq, h.pauseBefore_eq]
  rfl

theorem StartsOnce.wrapCut_eq (deadline : ℕ) (samples : ℕ → α) (attempt : ℕ → Attempt β) :
    e.wrapCut deadline spec samples attempt =
      (Course.single (attempt 0)).within deadline .start := by
  rw [wrapCut_eq_within, h.wrapCourse_eq]

theorem StartsOnce.streamCourse_eq (samples : ℕ → α) (subscriptions : List (List (Attempt β))) :
    e.streamCourse spec samples subscriptions =
      .singleSubscription (subscriptions.headD []) := by
  unfold streamCourse
  dsimp only
  rw [h.attemptLimit_eq, h.pauseBefore_eq, Course.ofSubscriptions_one]
  rfl

end Courses

/-- What a call guards, if it guards something. -/
def Call.spec? : Call β → Option OperationSpec
  | .wrap spec _ _ => some spec
  | .stream spec _ _ => some spec
  | _ => none

/-- The pauses before an answer. -/
def Reply.pauses : Reply β → List Duration
  | .wrapped happenings _ => Course.pausesOf happenings
  | .streamed happenings => Course.pausesOf happenings
  | _ => []

section Calls

variable [Quantity α] {c : Call β} (now : Instant) (samples samples' : ℕ → α)

/-- Engines that start an operation once do the same with it, whatever their policies are beside
that. -/
theorem perform_eq_of_startsOnce (h : ∀ spec ∈ c.spec?, e.StartsOnce spec.profile)
    (h' : ∀ spec ∈ c.spec?, e'.StartsOnce spec.profile) :
    e.perform now samples c = e'.perform now samples' c := by
  cases c with
  | wrap spec attempt patience =>
    have hone := h spec rfl
    have hone' := h' spec rfl
    cases patience with
    | none => simp only [perform, wrap, hone.wrapCourse_eq, hone'.wrapCourse_eq]
    | some patience => simp only [perform, wrapWithin, hone.wrapCut_eq, hone'.wrapCut_eq]
  | stream spec subscriptions wanted =>
    have hone := h spec rfl
    have hone' := h' spec rfl
    cases wanted with
    | none => simp only [perform, stream, hone.streamCourse_eq, hone'.streamCourse_eq]
    | some wanted => simp only [perform, streamTaking, hone.streamCourse_eq, hone'.streamCourse_eq]
  | degrade operation category f => rfl
  | trip operation f => rfl

end Calls

section Happenings

variable [Quantity α] {now : Instant} {samples : ℕ → α} {s s' : Session}

theorem wrap_happenings {attempt : ℕ → Attempt β} {hs : List (Happening Empty)}
    {answer : Except Fault (Outcome β)}
    (h : e.wrap now spec samples attempt s = .ok ((hs, answer), s')) :
    hs = (e.wrapCourse spec samples attempt).happenings := by
  obtain ⟨_, _, _, h⟩ := exists_of_bind_apply_eq_ok h
  obtain ⟨_, _, _, h⟩ := exists_of_bind_apply_eq_ok h
  exact congrArg (·.1.1) (Except.ok.inj h).symm

theorem wrapWithin_happenings {patience : Duration} {attempt : ℕ → Attempt β}
    {hs : List (Happening Empty)} {answer : Option (Except Fault (Outcome β))}
    (h : e.wrapWithin patience now spec samples attempt s = .ok ((hs, answer), s')) :
    hs = (e.wrapCut patience.ticks spec samples attempt).happenings := by
  obtain ⟨_, _, _, h⟩ := exists_of_bind_apply_eq_ok h
  cases hcut : e.wrapCut patience.ticks spec samples attempt with
  | whole c =>
    rw [hcut] at h
    obtain ⟨_, _, _, h⟩ := exists_of_bind_apply_eq_ok h
    exact congrArg (·.1.1) (Except.ok.inj h).symm
  | part hs' =>
    rw [hcut] at h
    exact congrArg (·.1.1) (Except.ok.inj h).symm

theorem stream_happenings {subscriptions : List (List (Attempt β))} {hs : List (Happening β)}
    (h : e.stream spec samples subscriptions s = .ok (hs, s')) :
    hs = (e.streamCourse spec samples subscriptions).happenings := by
  obtain ⟨_, _, _, h⟩ := exists_of_bind_apply_eq_ok h
  obtain ⟨_, _, _, h⟩ := exists_of_bind_apply_eq_ok h
  exact congrArg Prod.fst (Except.ok.inj h).symm

theorem streamTaking_happenings {wanted : ℕ} {subscriptions : List (List (Attempt β))}
    {hs : List (Happening β)}
    (h : e.streamTaking wanted spec samples subscriptions s = .ok (hs, s')) :
    hs <+: (e.streamCourse spec samples subscriptions).happenings := by
  obtain ⟨taken, hcut, hprefix, -⟩ :=
    Course.cutAfter_eq wanted (e.streamCourse spec samples subscriptions).happenings
  unfold streamTaking at h
  dsimp only at h
  rw [hcut] at h
  obtain ⟨_, _, _, h⟩ := exists_of_bind_apply_eq_ok h
  have htaken : taken = hs := by
    split at h
    · obtain ⟨_, _, _, h⟩ := exists_of_bind_apply_eq_ok h
      exact congrArg Prod.fst (Except.ok.inj h)
    · exact congrArg Prod.fst (Except.ok.inj h)
  exact htaken ▸ hprefix

/-- An engine that starts an operation once never pauses. -/
theorem pauses_of_perform {c : Call β} {reply : Reply β}
    (hone : ∀ spec ∈ c.spec?, e.StartsOnce spec.profile)
    (h : e.perform now samples c s = .ok (reply, s')) : reply.pauses = [] := by
  cases c with
  | wrap spec attempt patience =>
    have hspec := hone spec rfl
    cases patience with
    | none =>
      obtain ⟨⟨hs, answer⟩, _, hwrap, h⟩ := exists_of_bind_apply_eq_ok h
      obtain rfl : Reply.wrapped hs (some answer) = reply := congrArg Prod.fst (Except.ok.inj h)
      show Course.pausesOf hs = []
      rw [wrap_happenings hwrap, hspec.wrapCourse_eq]
      exact Course.pausesOf_single (attempt 0)
    | some patience =>
      obtain ⟨⟨hs, answer⟩, _, hwrap, h⟩ := exists_of_bind_apply_eq_ok h
      obtain rfl : Reply.wrapped hs answer = reply := congrArg Prod.fst (Except.ok.inj h)
      have hsingle := Course.pausesOf_single (attempt 0)
      show Course.pausesOf hs = []
      rw [wrapWithin_happenings hwrap, hspec.wrapCut_eq]
      rcases Course.within_cases patience.ticks .start (.single (attempt 0)) with hcut | hcut
      · rw [hcut]
        exact hsingle
      · obtain ⟨hs', hcut, hprefix⟩ := hcut
        rw [hcut]
        exact Course.pausesOf_eq_nil_of_isPrefix hprefix hsingle
  | stream spec subscriptions wanted =>
    have hspec := hone spec rfl
    have hsingle := Course.pausesOf_singleSubscription (subscriptions.headD [])
    cases wanted with
    | none =>
      obtain ⟨hs, _, hstream, h⟩ := exists_of_bind_apply_eq_ok h
      obtain rfl : Reply.streamed hs = reply := congrArg Prod.fst (Except.ok.inj h)
      show Course.pausesOf hs = []
      rw [stream_happenings hstream, hspec.streamCourse_eq]
      exact hsingle
    | some wanted =>
      obtain ⟨hs, _, hstream, h⟩ := exists_of_bind_apply_eq_ok h
      obtain rfl : Reply.streamed hs = reply := congrArg Prod.fst (Except.ok.inj h)
      have hprefix := streamTaking_happenings hstream
      rw [hspec.streamCourse_eq] at hprefix
      exact Course.pausesOf_eq_nil_of_isPrefix hprefix hsingle
  | degrade operation category f =>
    obtain ⟨response, _, _, h⟩ := exists_of_bind_apply_eq_ok h
    obtain rfl : Reply.degraded response = reply := congrArg Prod.fst (Except.ok.inj h)
    rfl
  | trip operation f =>
    obtain ⟨fault, _, _, h⟩ := exists_of_bind_apply_eq_ok h
    obtain rfl : Reply.tripped fault = reply := congrArg Prod.fst (Except.ok.inj h)
    rfl

end Happenings

end Engine
end Bulwark
