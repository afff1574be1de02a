import Bulwark.Proofs.Recovery.Subscriptions
import Bulwark.Proofs.Recovery.Wrap

/-!
# Guarded streams

What an engine does with a stream, by what its subscriptions give.  It is subscribed to until a
subscription ends by itself or ends the matter, and its items are those of all the subscriptions,
none lost, repeated or out of order.  A stream leaves its mark once, when it ends, and one that is
dropped before leaves nothing (`stream_hands_on`).
-/

namespace Bulwark.Engine

open Course

variable {β : Type}

/-! ## The end of a stream -/

/-- What a stream leaves whose last subscription ended so: a natural end is a success, and a fault
cuts the stream off, which goes on record. -/
def Mark.ofStream (spec : OperationSpec) (subscriptions : ℕ) : Option Fault → Mark
  | none => ⟨.success, []⟩
  | some f =>
    { ending := if f.kind = .validation ∨ f.kind = .circuitOpen then .failure else .degradation
      audits := [⟨"recovery", spec.name, "stream truncated after " ++ Nat.repr subscriptions
        ++ " subscription(s): " ++ f.message⟩] }

/-- A stream that is over leaves its mark. -/
theorem finishStream_leaves (spec : OperationSpec) {c : Course β Unit} {last : Option Fault}
    (hending : c.ending = endOf last) (s : Session) :
    ∃ s', finishStream spec c s = .ok ((), s') ∧
      Leaves s s' (Mark.ofStream spec c.starts last) c.starts := by
  unfold finishStream
  rw [hending]
  cases last with
  | none => exact ⟨_, rfl, s.counts.adds_record c.starts .success, (List.append_nil _).symm⟩
  | some f =>
    have hending : (if f.kind.isTerminal = true then Ending.failure else .degradation) =
        (Mark.ofStream spec c.starts (some f)).ending := by
      simp only [FaultClass.isTerminal_iff, Mark.ofStream]
    refine ⟨_, rfl, ?_, auditEvents_append s.events _⟩
    rw [← hending]
    exact s.counts.adds_record c.starts _

/-! ## What is handed on -/

/-- After subscription `i` a configuration has the stream subscribed to anew: it ended with a fault
that is retried, and that fault is not one too many in a row. -/
def Reopens (settings : RetrySettings Float) (retriesEnabled : Bool) (profile : RetryProfile)
    (subscriptions : List (List (Attempt β))) (i : ℕ) : Prop :=
  ∃ f, fault? (subscription subscriptions i) = some f ∧ settings.Retries profile f.kind ∧
    faultsInARow (heardOf subscriptions (i + 1)) < allowance settings retriesEnabled profile

section Guarded

variable {settings : RetrySettings Float} {policies : RetryPolicies Float}

theorem resumes_iff_reopens (hpolicies : settings.policies = .ok policies) (retriesEnabled : Bool)
    {profile : RetryProfile} (subscriptions : List (List (Attempt β))) (i : ℕ) :
    Resumes (policies.of profile) (allowance settings retriesEnabled profile) [] subscriptions i ↔
      Reopens settings retriesEnabled profile subscriptions i := by
  unfold Resumes Reopens
  simp only [(settings.follows_of_policies hpolicies profile).retries_iff, List.nil_append]

theorem itemsOf_leadIn (retriesEnabled : Bool) (profile : RetryProfile) :
    itemsOf (leadIn settings retriesEnabled profile : List (Happening β)) = [] := by
  unfold leadIn
  split <;> rfl

/-- The course of a stream that a configuration guards. -/
theorem streamCourse_ends (hpolicies : settings.policies = .ok policies) (hfits : settings.Fits)
    (retriesEnabled : Bool) (spec : OperationSpec) (samples : ℕ → Float)
    (subscriptions : List (List (Attempt β))) :
    ∃ n, (∀ i < n, Reopens settings retriesEnabled spec.profile subscriptions i) ∧
      ¬ Reopens settings retriesEnabled spec.profile subscriptions n ∧
      let c := (Engine.mk policies retriesEnabled).streamCourse spec samples subscriptions
      c.starts = n + 1 ∧ startsOf c.happenings = n + 1 ∧
        itemsOf c.happenings = producedBy subscriptions (n + 1) ∧
        c.ending = endOf (fault? (subscription subscriptions n)) := by
  have hdelays := settings.holdsDelays_of_policies hpolicies hfits spec.profile
  obtain ⟨n, hbefore, hlast, hopened, hstarts, hitems, hending⟩ :=
    ofSubscriptions_ends samples spec.name hdelays
      (allowance settings retriesEnabled spec.profile) 0 [] subscriptions
  simp only [resumes_iff_reopens hpolicies] at hbefore hlast
  refine ⟨n, hbefore, hlast, ?_⟩
  unfold streamCourse
  dsimp only
  rw [attemptLimit_eq hpolicies, pauseBefore_eq hpolicies]
  refine ⟨hopened.trans (Nat.zero_add _), ?_, ?_, hending⟩
  · show startsOf (_ ++ _) = _
    rw [startsOf_append, startsOf_leadIn, Nat.zero_add]
    exact hstarts
  · show itemsOf (_ ++ _) = _
    rw [itemsOf_append, itemsOf_leadIn, List.nil_append]
    exact hitems

/-- **A guarded stream.**  Its items are those of its subscriptions in order, as many subscriptions
as are opened anew and the first.  It leaves its mark when it ends and not before: a reader who
stops after some items has had the first ones, and the stream then leaves nothing. -/
theorem stream_hands_on (hpolicies : settings.policies = .ok policies) (hfits : settings.Fits)
    (retriesEnabled : Bool) (spec : OperationSpec) (samples : ℕ → Float)
    (subscriptions : List (List (Attempt β))) (before : Session) :
    let e : Engine Float := ⟨policies, retriesEnabled⟩
    ∃ n hs after,
      (∀ i < n, Reopens settings retriesEnabled spec.profile subscriptions i) ∧
      ¬ Reopens settings retriesEnabled spec.profile subscriptions n ∧
      e.stream spec samples subscriptions before = .ok (hs, after) ∧
      startsOf hs = n + 1 ∧
      itemsOf hs = producedBy subscriptions (n + 1) ∧
      Leaves before after (Mark.ofStream spec (n + 1) (fault? (subscription subscriptions n)))
        (n + 1) ∧
      ∀ wanted,
        (wanted ≤ (producedBy subscriptions (n + 1)).length →
          ∃ taken after', e.streamTaking wanted spec samples subscriptions before =
              .ok (taken, after') ∧
            taken <+: hs ∧ itemsOf taken = (producedBy subscriptions (n + 1)).take wanted ∧
            LeavesNothing before after') ∧
        ((producedBy subscriptions (n + 1)).length < wanted →
          e.streamTaking wanted spec samples subscriptions before = .ok (hs, after)) := by
  intro e
  obtain ⟨n, hbefore, hlast, hopened, hstarts, hitems, hending⟩ :=
    streamCourse_ends hpolicies hfits retriesEnabled spec samples subscriptions
  set c := e.streamCourse spec samples subscriptions with hc
  have hlog := leavesNothing_log before (logOf c.happenings)
  obtain ⟨after, hfinish, hleaves⟩ := finishStream_leaves spec hending
    { before with events := before.events ++ (logOf c.happenings).map .log }
  rw [hopened] at hleaves
  refine ⟨n, c.happenings, after, hbefore, hlast, ?_, hstarts, hitems,
    hleaves.of_leavesNothing hlog, fun wanted => ?_⟩
  · show (report _ >>= fun _ => _) before = _
    rw [bind_of_eq_ok rfl]
    exact bind_of_eq_ok hfinish
  obtain ⟨taken, hcut, hprefix, htaken, hall⟩ := cutAfter_eq wanted c.happenings
  rw [hitems] at hcut htaken hall
  unfold streamTaking
  rw [← hc, hcut]
  constructor
  · intro henough
    refine ⟨taken, _, ?_, hprefix, htaken, leavesNothing_log before (logOf taken)⟩
    simp only [decide_eq_true henough]
    rfl
  · intro hfew
    simp only [hall hfew, decide_eq_false (Nat.not_le.mpr hfew)]
    show (report _ >>= fun _ => _) before = _
    rw [bind_of_eq_ok rfl]
    exact bind_of_eq_ok hfinish

end Guarded

/-- A stream that faults after an item, and then again before it goes on. -/
def twoFaults : List (List (Attempt Bool)) :=
  [[⟨none, .ok true⟩, ⟨none, .error (.streaming "lost")⟩], [⟨none, .error (.streaming "lost")⟩],
    [⟨none, .ok false⟩]]

theorem reopens_twoFaults_iff (i : ℕ) :
    Reopens (RetrySettings.none : RetrySettings Float) true .streaming twoFaults i ↔ i < 2 := by
  have hretries : (RetrySettings.none : RetrySettings Float).Retries .streaming .streaming :=
    ⟨List.mem_cons_self, by decide, by decide⟩
  match i with
  | 0 => exact ⟨fun _ => by decide, fun _ => ⟨_, rfl, hretries, by decide⟩⟩
  | 1 => exact ⟨fun _ => by decide, fun _ => ⟨_, rfl, hretries, by decide⟩⟩
  | i + 2 =>
    refine ⟨?_, fun h => absurd h (by omega)⟩
    rintro ⟨f, hf, _⟩
    cases i <;> cases hf

/-- Without a configuration, two faults in a row are got over. -/
theorem stream_twoFaults :
    (RetrySettings.none : RetrySettings Float).policies =
        .ok ⟨.generic, .backpressure, .streaming⟩ ∧
      (RetrySettings.none : RetrySettings Float).Fits ∧
      ∃ hs after, (Engine.mk ⟨.generic, .backpressure, .streaming⟩ true).stream
          ⟨"watch", .streaming, .circuitBreak⟩ (fun _ => (Quantity.zero : Float)) twoFaults
          ⟨.zero, []⟩ = .ok (hs, after) ∧
        startsOf hs = 3 ∧ itemsOf hs = [true, false] := by
  have hpolicies : (RetrySettings.none : RetrySettings Float).policies =
      .ok ⟨.generic, .backpressure, .streaming⟩ := rfl
  refine ⟨hpolicies, RetrySettings.fits_none, ?_⟩
  obtain ⟨n, hs, after, hbefore, hlast, hstream, hstarts, hitems, _⟩ :=
    stream_hands_on hpolicies RetrySettings.fits_none true ⟨"watch", .streaming, .circuitBreak⟩
      (fun _ => (Quantity.zero : Float)) twoFaults ⟨.zero, []⟩
  simp only [reopens_twoFaults_iff] at hbefore hlast
  have hn : n = 2 := by
    by_contra hne
    exact absurd (hbefore 2 (by omega)) (by decide)
  subst hn
  exact ⟨hs, after, hstream, hstarts, hitems⟩

end Bulwark.Engine
