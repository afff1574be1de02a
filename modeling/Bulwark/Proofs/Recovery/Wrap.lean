import Mathlib.Order.Bounds.Basic
import Bulwark.Recovery.Engine
import Bulwark.Proofs.Recovery.Attempts

/-!
# Guarded operations

What an engine does with an operation, by the results of its attempts alone.  The number of attempts
is the least after which nothing is left to try (`stops`), the last result decides what is answered,
counted and put on record (`Verdict.of`), and in between there are the pauses that the policy asks
for.  `wrap_isLeast_stops` says all of this of every operation and of every one that is given up
half-way, which counts nowhere and leaves no record.
-/

namespace Bulwark

/-! ## What is counted -/

/-- How many operations have ended in a way. -/
def RecoveryCount.ended (c : RecoveryCount) : Ending → UInt64
  | .success => c.successes
  | .failure => c.failures
  | .degradation => c.degradations
  | .circuitTrip => c.circuitTrips

/-- One more operation has ended in a way, after so many attempts, and nothing else has changed. -/
structure RecoveryCount.Adds (c c' : RecoveryCount) (attempts : ℕ) (ending : Ending) : Prop where
  totalAttempts : c'.totalAttempts = c.totalAttempts + UInt64.ofNat attempts
  this_ending : c'.ended ending = c.ended ending + 1
  other_ending : ∀ other ≠ ending, c'.ended other = c.ended other

theorem RecoveryCount.adds_record (c : RecoveryCount) (attempts : ℕ) (ending : Ending) :
    c.Adds (c.record attempts ending) attempts ending where
  totalAttempts := by cases ending <;> rfl
  this_ending := by cases ending <;> rfl
  other_ending := by
    intro other hother
    cases ending <;> cases other <;> first | rfl | exact absurd rfl hother

namespace Engine

open Course

/-! ## What the last result decides -/

/-- What an operation leaves when it is over: it is counted, and perhaps put on record. -/
structure Mark where
  ending : Ending
  audits : List AuditEvent

/-- What becomes of an operation. -/
structure Verdict (β : Type) extends Mark where
  answer : Except Fault (Outcome β)

/-- What becomes of an operation whose last attempt had this result.  Faults of the terminal classes
go back to the caller, and the fallback answers for all others. -/
def Verdict.of {β : Type} (spec : OperationSpec) (date : Timestamp) (attempts : ℕ) :
    Except Fault β → Verdict β
  | .ok value => { answer := .ok (.success value), ending := .success, audits := [] }
  | .error f =>
    if f.kind = .validation ∨ f.kind = .circuitOpen then
      { answer := .error f, ending := .failure, audits := [] }
    else
      match spec.fallback with
      | .degrade category =>
        { answer := .ok (.degraded (.make spec.name category f.message date))
          ending := .degradation
          audits := [⟨"recovery", spec.name, "degraded to " ++ category.name ++ " payload after "
            ++ Nat.repr attempts ++ " attempt(s): " ++ f.message⟩] }
      | .circuitBreak =>
        { answer := .error (.circuitOpen spec.name)
          ending := .circuitTrip
          audits := [⟨"recovery", spec.name, "circuit opened after " ++ Nat.repr attempts
            ++ " attempt(s): " ++ f.message⟩] }

/-- An operation is over after so many attempts, and leaves its mark. -/
structure Leaves (before after : Session) (m : Mark) (attempts : ℕ) : Prop where
  counts : before.counts.Adds after.counts attempts m.ending
  audits : auditEvents after.events = auditEvents before.events ++ m.audits

/-- What an operation leaves that is given up half-way. -/
structure LeavesNothing (before after : Session) : Prop where
  counts : after.counts = before.counts
  audits : auditEvents after.events = auditEvents before.events

/-- Log entries leave nothing. -/
theorem leavesNothing_log (s : Session) (entries : List LogEntry) :
    LeavesNothing s { s with events := s.events ++ entries.map .log } where
  counts := rfl
  audits := by rw [auditEvents_append, auditEvents_map_log, List.append_nil]

/-- A call goes on from where its first part has come to. -/
theorem bind_of_eq_ok {β γ : Type} {x : Action β} {f : β → Action γ} {s s' : Session} {answer : β}
    (h : x s = .ok (answer, s')) : (x >>= f) s = f answer s' := by
  show (x s).bind (fun p => f p.1 p.2) = _
  rw [h]
  rfl

/-- What a call leaves after log entries, it leaves. -/
theorem Leaves.of_leavesNothing {s s' s'' : Session} {m : Mark} {attempts : ℕ}
    (h : Leaves s' s'' m attempts) (hlog : LeavesNothing s s') : Leaves s s'' m attempts where
  counts := hlog.counts ▸ h.counts
  audits := hlog.audits ▸ h.audits

section Ends

variable {β : Type} {now : Instant} {date : Timestamp}

/-- A degraded response is given, counted and put on record. -/
theorem degrade_leaves (hdate : Timestamp.ofInstant? now = some date) (operation : String)
    (category : DegradationCategory) (attempts : ℕ) (f : Fault) (s : Session) :
    ∃ s', degrade now operation category attempts f s =
        .ok (.make operation category f.message date, s') ∧
      s.counts.Adds s'.counts attempts .degradation ∧
      auditEvents s'.events = auditEvents s.events ++ [⟨"recovery", operation, "degraded to "
        ++ category.name ++ " payload after " ++ Nat.repr attempts ++ " attempt(s): "
        ++ f.message⟩] := by
  unfold degrade Timestamp.ofClock
  simp only [hdate]
  exact ⟨_, rfl, s.counts.adds_record attempts .degradation, auditEvents_append s.events _⟩

/-- An open circuit is answered, counted and put on record. -/
theorem trip_leaves (operation : String) (attempts : ℕ) (f : Fault) (s : Session) :
    ∃ s', trip operation attempts f s = .ok (.circuitOpen operation, s') ∧
      s.counts.Adds s'.counts attempts .circuitTrip ∧
      auditEvents s'.events = auditEvents s.events ++ [⟨"recovery", operation,
        "circuit opened after " ++ Nat.repr attempts ++ " attempt(s): " ++ f.message⟩] :=
  ⟨_, rfl, s.counts.adds_record attempts .circuitTrip, auditEvents_append s.events _⟩

/-- A fault that is not retried any more comes to its verdict. -/
theorem conclude_leaves (hdate : Timestamp.ofInstant? now = some date) (spec : OperationSpec)
    (attempts : ℕ) (f : Fault) (s : Session) :
    ∃ s', conclude (β := β) now spec attempts f s =
        .ok ((Verdict.of spec date attempts (.error f : Except Fault β)).answer, s') ∧
      Leaves s s' (Verdict.of spec date attempts (.error f : Except Fault β)).toMark attempts := by
  unfold conclude Verdict.of
  by_cases hterminal : f.kind.isTerminal = true
  · rw [if_pos hterminal]
    simp only [if_pos (FaultClass.isTerminal_iff.mp hterminal)]
    exact ⟨_, rfl, s.counts.adds_record attempts .failure, auditEvents_append s.events _⟩
  · rw [if_neg hterminal]
    simp only [if_neg (mt FaultClass.isTerminal_iff.mpr hterminal)]
    cases spec.fallback with
    | degrade category =>
      obtain ⟨s', hs', hcounts, haudits⟩ := degrade_leaves hdate spec.name category attempts f s
      exact ⟨s', bind_of_eq_ok hs', hcounts, haudits⟩
    | circuitBreak =>
      obtain ⟨s', hs', hcounts, haudits⟩ := trip_leaves spec.name attempts f s
      exact ⟨s', bind_of_eq_ok hs', hcounts, haudits⟩

/-- An operation whose last attempt had a result comes to the verdict on it. -/
theorem finish_leaves (hdate : Timestamp.ofInstant? now = some date) (spec : OperationSpec)
    {c : Course Empty β} {r : Except Fault β} (hending : c.ending = .ofResult r) (s : Session) :
    ∃ s', finish now spec c s = .ok ((Verdict.of spec date c.starts r).answer, s') ∧
      Leaves s s' (Verdict.of spec date c.starts r).toMark c.starts := by
  unfold finish
  rw [hending]
  cases r with
  | ok value => exact ⟨_, rfl, s.counts.adds_record c.starts .success, (List.append_nil _).symm⟩
  | error f => exact conclude_leaves hdate spec c.starts f s

end Ends

/-! ## How often an operation is started -/

/-- A result that no retry follows, however many are left. -/
def Settles {β : Type} (settings : RetrySettings Float) (profile : RetryProfile) :
    Except Fault β → Prop
  | .ok _ => True
  | .error f => ¬ settings.Retries profile f.kind

/-- The number of attempts that a configuration allows. -/
def allowance (settings : RetrySettings Float) (retriesEnabled : Bool) (profile : RetryProfile) :
    ℕ :=
  if retriesEnabled then settings.attempts profile else 1

/-- The numbers of attempts after which nothing is left to try: the last result settles the matter,
or no more attempts are allowed. -/
def stops {β : Type} (settings : RetrySettings Float) (retriesEnabled : Bool)
    (profile : RetryProfile) (attempt : ℕ → Attempt β) : Set ℕ :=
  {k | 0 < k ∧ (Settles settings profile (attempt (k - 1)).result ∨
    k = allowance settings retriesEnabled profile)}

/-- The pause before the first attempt, if there is one. -/
def leadIn {γ : Type} (settings : RetrySettings Float) (retriesEnabled : Bool)
    (profile : RetryProfile) : List (Happening γ) :=
  if retriesEnabled = true ∧ settings.pause profile ≠ .zero then [.pause (settings.pause profile)]
  else []

@[simp]
theorem startsOf_leadIn {γ : Type} (settings : RetrySettings Float) (retriesEnabled : Bool)
    (profile : RetryProfile) :
    startsOf (leadIn settings retriesEnabled profile : List (Happening γ)) = 0 := by
  unfold leadIn
  split <;> rfl

section Guarded

variable {β : Type} {settings : RetrySettings Float} {policies : RetryPolicies Float}
  {profile : RetryProfile}

theorem retried_iff_not_settles (hpolicies : settings.policies = .ok policies)
    {r : Except Fault β} :
    Retried (policies.of profile) r ↔ ¬ Settles settings profile r := by
  cases r with
  | ok value => exact ⟨(nomatch ·.choose_spec.1), fun h => absurd trivial h⟩
  | error f =>
    have hretries := (settings.follows_of_policies hpolicies profile).retries_iff f.kind
    show (∃ f', _) ↔ ¬ ¬ settings.Retries profile f.kind
    rw [not_not, ← hretries]
    constructor
    · rintro ⟨f', heq, h⟩
      cases heq
      exact h
    · exact fun h => ⟨f, rfl, h⟩

theorem attemptLimit_eq (hpolicies : settings.policies = .ok policies) (retriesEnabled : Bool) :
    (Engine.mk policies retriesEnabled).attemptLimit (policies.of profile) =
      allowance settings retriesEnabled profile := by
  unfold attemptLimit allowance
  rw [(settings.follows_of_policies hpolicies profile).attempts_eq]

theorem allowance_pos (hpolicies : settings.policies = .ok policies) (retriesEnabled : Bool)
    (profile : RetryProfile) : 0 < allowance settings retriesEnabled profile := by
  have hfollows := settings.follows_of_policies hpolicies profile
  have hpos := hfollows.attempts_pos
  rw [hfollows.attempts_eq] at hpos
  unfold allowance
  split
  · exact hpos
  · exact Nat.one_pos

theorem pauseBefore_eq (hpolicies : settings.policies = .ok policies) (retriesEnabled : Bool)
    {γ : Type} :
    (Engine.mk policies retriesEnabled).pauseBefore (β := γ) (policies.of profile) =
      leadIn settings retriesEnabled profile := by
  unfold pauseBefore leadIn preDelay
  rw [(settings.follows_of_policies hpolicies profile).preDelay_eq]
  cases retriesEnabled with
  | false => rfl
  | true => by_cases hzero : settings.pause profile = .zero <;> simp [hzero]

/-- The course of an operation that a configuration guards. -/
theorem wrapCourse_ends (hpolicies : settings.policies = .ok policies) (hfits : settings.Fits)
    (retriesEnabled : Bool) (spec : OperationSpec) (samples : ℕ → Float)
    (attempt : ℕ → Attempt β) :
    ∃ k ds, IsLeast (stops settings retriesEnabled spec.profile attempt) k ∧
      ds.map some = (List.range (k - 1)).map
        (fun i => (policies.of spec.profile).jitteredDelay? i (samples i)) ∧
      let c := (Engine.mk policies retriesEnabled).wrapCourse spec samples attempt
      c.starts = k ∧ c.ending = .ofResult (attempt (k - 1)).result ∧
        outlineOf c.happenings =
          leadIn settings retriesEnabled spec.profile ++ attemptsWithPauses ds := by
  have hdelays := settings.holdsDelays_of_policies hpolicies hfits spec.profile
  have hpos := allowance_pos hpolicies retriesEnabled spec.profile
  obtain ⟨retries, ds, hle, hbefore, hlast, hds, hstarts, hending, houtline⟩ :=
    ofAttempts_ends samples spec.name hdelays attempt
      (allowance settings retriesEnabled spec.profile - 1) 0
  simp only [Nat.zero_add] at hbefore hlast hstarts hending
  refine ⟨retries + 1, ds, ⟨⟨Nat.succ_pos retries, ?_⟩, ?_⟩, ?_, ?_⟩
  · -- the last attempt has come to an end
    by_cases hsettles : Settles settings spec.profile (attempt retries).result
    · exact .inl hsettles
    · have := hlast ((retried_iff_not_settles hpolicies).mpr hsettles)
      exact .inr (by omega)
  · -- the attempts before it have not
    rintro k ⟨hk, hsettles | hk'⟩
    · by_contra hlt
      exact (retried_iff_not_settles hpolicies).mp (hbefore (k - 1) (by omega)) hsettles
    · omega
  · rw [hds, List.range_eq_range']
    rfl
  · unfold wrapCourse
    dsimp only
    rw [attemptLimit_eq hpolicies, pauseBefore_eq hpolicies]
    refine ⟨hstarts, hending, ?_⟩
    show outlineOf (_ ++ _) = _
    rw [outlineOf_append, houtline]
    congr 1
    unfold leadIn
    split <;> rfl

/-- **A guarded operation.**  Whatever its attempts result in, it is started until nothing is left
to try, with one pause of the policy between two attempts and at most one before the first.  The
last result decides what is answered, counted and put on record.  Given up at any time, it counts
nowhere and leaves no record. -/
theorem wrap_isLeast_stops (hpolicies : settings.policies = .ok policies) (hfits : settings.Fits)
    (retriesEnabled : Bool) {now : Instant} {date : Timestamp}
    (hdate : Timestamp.ofInstant? now = some date) (spec : OperationSpec) (samples : ℕ → Float)
    (attempt : ℕ → Attempt β) (before : Session) :
    let e : Engine Float := ⟨policies, retriesEnabled⟩
    ∃ k ds hs after,
      IsLeast (stops settings retriesEnabled spec.profile attempt) k ∧
      let verdict := Verdict.of spec date k (attempt (k - 1)).result
      e.wrap now spec samples attempt before = .ok ((hs, verdict.answer), after) ∧
      startsOf hs = k ∧
      outlineOf hs = leadIn settings retriesEnabled spec.profile ++ attemptsWithPauses ds ∧
      ds.map some = (List.range (k - 1)).map
        (fun i => (policies.of spec.profile).jitteredDelay? i (samples i)) ∧
      Leaves before after verdict.toMark k ∧
      ∀ patience,
        e.wrapWithin patience now spec samples attempt before =
          .ok ((hs, some verdict.answer), after) ∨
        ∃ hs' after', e.wrapWithin patience now spec samples attempt before =
            .ok ((hs', none), after') ∧
          hs' <+: hs ∧ LeavesNothing before after' := by
  intro e
  obtain ⟨k, ds, hleast, hds, hstarts, hending, houtline⟩ :=
    wrapCourse_ends hpolicies hfits retriesEnabled spec samples attempt
  set c := e.wrapCourse spec samples attempt with hc
  have hlog := leavesNothing_log before (logOf c.happenings)
  obtain ⟨after, hfinish, hleaves⟩ := finish_leaves hdate spec hending
    { before with events := before.events ++ (logOf c.happenings).map .log }
  rw [hstarts] at hfinish hleaves
  refine ⟨k, ds, c.happenings, after, hleast, ?_, ?_, houtline, hds,
    hleaves.of_leavesNothing hlog, fun patience => ?_⟩
  · show (report _ >>= fun _ => _) before = _
    rw [bind_of_eq_ok rfl]
    exact bind_of_eq_ok hfinish
  · have hlength : ds.length = k - 1 := by
      rw [← List.length_map (f := some), hds, List.length_map, List.length_range]
    have hk := hleast.1.1
    rw [← startsOf_outlineOf, houtline, startsOf_append, startsOf_leadIn,
      startsOf_attemptsWithPauses, hlength]
    omega
  · unfold wrapWithin
    rw [wrapCut_eq_within, ← hc]
    rcases within_cases patience.ticks .start c with hwhole | ⟨hs', hpart, hprefix⟩
    · left
      rw [hwhole]
      show (report _ >>= fun _ => _) before = _
      rw [bind_of_eq_ok rfl]
      exact bind_of_eq_ok hfinish
    · right
      rw [hpart]
      exact ⟨hs', _, rfl, hprefix, leavesNothing_log before (logOf hs')⟩

/-- An operation that fails twice in passing, and then gives a result. -/
def thirdTime : ℕ → Attempt Bool
  | 0 => ⟨none, .error (.transient "busy")⟩
  | 1 => ⟨none, .error (.transient "busy")⟩
  | _ => ⟨none, .ok true⟩

theorem isLeast_stops_thirdTime :
    IsLeast (stops (RetrySettings.none : RetrySettings Float) true .generic thirdTime) 3 := by
  have hretries : (RetrySettings.none : RetrySettings Float).Retries .generic .transient :=
    ⟨List.mem_cons_self, by decide, by decide⟩
  refine ⟨⟨by decide, .inl trivial⟩, ?_⟩
  rintro k ⟨hpos, hsettles | hlimit⟩
  · by_contra hlt
    obtain rfl | rfl : k = 1 ∨ k = 2 := by omega
    · exact hsettles hretries
    · exact hsettles hretries
  · exact hlimit.ge

/-- Without a configuration, the third attempt is made and is the last. -/
theorem wrap_thirdTime :
    let spec : OperationSpec := ⟨"read", .generic, .circuitBreak⟩
    (RetrySettings.none : RetrySettings Float).policies =
        .ok ⟨.generic, .backpressure, .streaming⟩ ∧
      (RetrySettings.none : RetrySettings Float).Fits ∧
      Timestamp.ofInstant? ⟨0⟩ = some ⟨0, 0⟩ ∧
      ∃ hs after, (Engine.mk ⟨.generic, .backpressure, .streaming⟩ true).wrap ⟨0⟩ spec
          (fun _ => (Quantity.zero : Float)) thirdTime ⟨.zero, []⟩ =
            .ok ((hs, .ok (.success true)), after) ∧
        startsOf hs = 3 := by
  have hpolicies : (RetrySettings.none : RetrySettings Float).policies =
      .ok ⟨.generic, .backpressure, .streaming⟩ := rfl
  have hdate : Timestamp.ofInstant? ⟨0⟩ = some ⟨0, 0⟩ := by decide
  refine ⟨hpolicies, RetrySettings.fits_none, hdate, ?_⟩
  obtain ⟨k, _, hs, after, hleast, hwrap, hstarts, _⟩ :=
    wrap_isLeast_stops hpolicies RetrySettings.fits_none true hdate
      ⟨"read", .generic, .circuitBreak⟩ (fun _ => (Quantity.zero : Float)) thirdTime ⟨.zero, []⟩
  obtain rfl := hleast.unique isLeast_stops_thirdTime
  exact ⟨hs, after, hwrap, hstarts⟩

end Guarded

end Engine
end Bulwark
