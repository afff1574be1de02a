import Bulwark.Proofs.Limiter.Expiry
import Bulwark.Proofs.Limiter.Fate

/-!
# The passage of a request

A request is checked along its dimensions in order, up to the first that rejects it.  Only the store
can reject: an enabled dimension with valid parameters does, when the breaker admits its call and
the store answers with a denial (`check_eq_false_iff`).  What the checks do, one after the other, is
said by their fates alone (`settled`), so nothing is done for a dimension behind the one that
rejects (`checkAll_settles`).
-/

namespace Bulwark.Limiter

variable {α : Type} [Quantity α] [QuantityText α]

/-! ## Rejections -/

/-- A dimension rejects: it is enabled with valid parameters, the breaker admits the call, and the
store answers with a denial. -/
structure Rejects (settings : LimiterSettings α) (now : Instant) (d : Dimension) (s : Session) :
    Prop where
  enabled : (settings.allowances.get d.kind).enabled = true
  valid : (settings.allowances.get d.kind).isValid = true
  admitted : (s.breaker.allow settings.breaker (Breaker.reading now)).1 = true
  denied : ∃ outcome, (s.gate.call (·.takeTokens now (d.storageKey settings.keyPrefix)
    (requestOn settings now d))).1 = .ok outcome ∧ outcome.allowed = false

section Rejections

variable {settings : LimiterSettings α} {now : Instant} {d : Dimension} {s : Session}

/-- Nothing but a denial by the store makes a check answer no. -/
theorem check_eq_false_iff (hone : isCost (Quantity.one : α) = true) :
    (check settings now d s).1 = false ↔ Rejects settings now d s := by
  rw [(check_meets settings now d s).1]
  unfold fateOn
  dsimp only
  split
  · rename_i henabled
    rcases fateWith_cases settings now d (settings.allowances.get d.kind).capacity
        (settings.allowances.get d.kind).rate (settings.allowances.get d.kind).interval
        Quantity.one s with
      ⟨hpayable, hfate⟩ | ⟨_, hpasses, hfate⟩ | ⟨e, _, _, hcall, hfate⟩ |
        ⟨outcome, hpayable, hpasses, hcall, hfate⟩
    · rw [hfate]
      refine ⟨nofun, fun h => ?_⟩
      rw [hone, Bool.and_true] at hpayable
      exact absurd (h.valid.symm.trans hpayable) nofun
    · rw [hfate]
      exact ⟨nofun, fun h => absurd (h.admitted.symm.trans (congrArg Prod.fst hpasses)) nofun⟩
    · rw [hfate]
      refine ⟨nofun, fun h => ?_⟩
      obtain ⟨outcome, hanswer, _⟩ := h.denied
      exact absurd (hanswer.symm.trans hcall) nofun
    · rw [hfate]
      refine ⟨fun hno => ⟨henabled, (Bool.and_eq_true_iff.mp hpayable).1, hpasses,
        outcome, hcall, hno⟩, fun h => ?_⟩
      obtain ⟨denial, hanswer, hno⟩ := h.denied
      obtain rfl : denial = outcome := Except.ok.inj (hanswer.symm.trans hcall)
      exact hno
  · rename_i hdisabled
    exact ⟨nofun, fun h => absurd h.enabled hdisabled⟩

theorem check_eq_true (hone : isCost (Quantity.one : α) = true)
    (h : ¬ Rejects settings now d s) : (check settings now d s).1 = true := by
  by_contra hno
  exact h ((check_eq_false_iff hone).mp (eq_false_of_ne_true hno))

/-- A check that the parameters or the breaker keep from the store lets the request in and leaves
the store alone. -/
theorem check_of_not_asked (h : (settings.allowances.get d.kind).isValid = false ∨
      (s.breaker.allow settings.breaker (Breaker.reading now)).1 = false) :
    (check settings now d s).1 = true ∧ (check settings now d s).2.gate = s.gate := by
  obtain ⟨hanswer, hmeets⟩ := check_meets settings now d s
  have hfate : (fateOn settings now d s).asks = false := by
    unfold fateOn fateWith
    dsimp only
    split
    · rcases h with hinvalid | hrefused
      · have hareValid : Allowance.areValid (settings.allowances.get d.kind).capacity
          (settings.allowances.get d.kind).rate (settings.allowances.get d.kind).interval = false :=
            hinvalid
        rw [hareValid]
        rfl
      · rw [hrefused]
        split <;> rfl
    · rfl
  have hundecided : ∀ outcome, fateOn settings now d s ≠ .decided outcome := by
    intro outcome hdecided
    rw [hdecided] at hfate
    exact absurd hfate nofun
  have hgate := hmeets.gate_of_undecided hundecided
  rw [hfate] at hgate
  exact ⟨hanswer.trans (Fate.allowed_of_undecided hundecided), hgate⟩

end Rejections

/-! ## Checks one after the other -/

section Sequence

variable (settings : LimiterSettings α) (now : Instant)

/-- The session after checks of dimensions in order, whatever they answer. -/
def afterChecks (dims : List Dimension) (s : Session) : Session :=
  dims.foldl (fun s d => (check settings now d s).2) s

/-- The fates of dimensions that are checked in order. -/
def fates : List Dimension → Session → List (Dimension × Fate α)
  | [], _ => []
  | d :: rest, s => (d, fateOn settings now d s) :: fates rest (check settings now d s).2

/-- A dimension rejects in its turn, which is the `k`-th, counted from zero. -/
def RejectsAt (dims : List Dimension) (s : Session) (k : ℕ) : Prop :=
  ∃ d, dims[k]? = some d ∧ Rejects settings now d (afterChecks settings now (dims.take k) s)

/-- The first dimension that rejects is the `k`-th. -/
structure RejectsFirst (dims : List Dimension) (s : Session) (k : ℕ) : Prop where
  rejects : RejectsAt settings now dims s k
  earlier : ∀ j < k, ¬ RejectsAt settings now dims s j

variable {settings now} {d : Dimension} {dims rest : List Dimension} {s : Session} {k : ℕ}

theorem rejectsAt_zero : RejectsAt settings now (d :: rest) s 0 ↔ Rejects settings now d s :=
  ⟨fun ⟨_, hd, h⟩ => Option.some.inj hd ▸ h, fun h => ⟨d, rfl, h⟩⟩

theorem rejectsAt_succ : RejectsAt settings now (d :: rest) s (k + 1) ↔
    RejectsAt settings now rest (check settings now d s).2 k := Iff.rfl

theorem RejectsFirst.head (h : RejectsFirst settings now (d :: rest) s (k + 1)) :
    ¬ Rejects settings now d s := fun hrejects =>
  h.earlier 0 k.succ_pos (rejectsAt_zero.mpr hrejects)

theorem RejectsFirst.tail (h : RejectsFirst settings now (d :: rest) s (k + 1)) :
    RejectsFirst settings now rest (check settings now d s).2 k where
  rejects := rejectsAt_succ.mp h.rejects
  earlier := fun j hj hrejects => h.earlier (j + 1) (Nat.succ_lt_succ hj)
    (rejectsAt_succ.mpr hrejects)

/-- Where a dimension rejects, one is the first. -/
theorem exists_rejectsFirst (h : RejectsAt settings now dims s k) :
    ∃ j, RejectsFirst settings now dims s j := by
  classical
  have hex : ∃ k, RejectsAt settings now dims s k := ⟨k, h⟩
  exact ⟨Nat.find hex, Nat.find_spec hex, fun j hj => Nat.find_min hex hj⟩

/-- Checks stop behind the first dimension that rejects. -/
theorem checkEach_of_rejectsFirst (hone : isCost (Quantity.one : α) = true)
    (h : RejectsFirst settings now dims s k) :
    checkEach settings now dims s = (false, afterChecks settings now (dims.take (k + 1)) s) := by
  induction dims generalizing s k with
  | nil =>
    obtain ⟨d, hd, _⟩ := h.rejects
    cases hd
  | cons d rest ih =>
    unfold checkEach
    rw [bind_apply]
    cases k with
    | zero =>
      rw [(check_eq_false_iff hone).mpr (rejectsAt_zero.mp h.rejects)]
      rfl
    | succ k =>
      rw [check_eq_true hone h.head]
      exact ih h.tail

/-- Without a rejection all dimensions are checked. -/
theorem checkEach_of_none (hone : isCost (Quantity.one : α) = true)
    (h : ∀ k, ¬ RejectsAt settings now dims s k) :
    checkEach settings now dims s = (true, afterChecks settings now dims s) := by
  induction dims generalizing s with
  | nil => rfl
  | cons d rest ih =>
    have hyes : (check settings now d s).1 = true :=
      check_eq_true hone fun hrejects => h 0 (rejectsAt_zero.mpr hrejects)
    unfold checkEach
    rw [bind_apply, hyes]
    exact ih fun k hrejects => h (k + 1) (rejectsAt_succ.mpr hrejects)

/-- The fate of a dimension that rejects is a denial. -/
theorem Rejects.fate (hone : isCost (Quantity.one : α) = true) (h : Rejects settings now d s) :
    ∃ outcome, fateOn settings now d s = .decided outcome ∧ outcome.allowed = false := by
  have hno := (check_meets settings now d s).1.symm.trans ((check_eq_false_iff hone).mpr h)
  cases hf : fateOn settings now d s with
  | decided outcome =>
    rw [hf] at hno
    exact ⟨outcome, rfl, hno⟩
  | _ =>
    rw [hf] at hno
    cases hno

/-- The fates up to the first dimension that rejects let the request in, and its own is a denial. -/
theorem fates_of_rejectsFirst (hone : isCost (Quantity.one : α) = true)
    (h : RejectsFirst settings now dims s k) :
    ∃ before d outcome,
      fates settings now (dims.take (k + 1)) s = before ++ [(d, .decided outcome)] ∧
      before.length = k ∧ (∀ p ∈ before, p.2.allowed = true) ∧ outcome.allowed = false := by
  induction dims generalizing s k with
  | nil =>
    obtain ⟨d, hd, _⟩ := h.rejects
    cases hd
  | cons d rest ih =>
    cases k with
    | zero =>
      obtain ⟨outcome, hfate, hno⟩ := (rejectsAt_zero.mp h.rejects).fate hone
      refine ⟨[], d, outcome, ?_, rfl, nofun, hno⟩
      rw [← hfate]
      rfl
    | succ k =>
      obtain ⟨before, d', outcome, hfates, hlength, hbefore, hno⟩ := ih h.tail
      refine ⟨(d, fateOn settings now d s) :: before, d', outcome, ?_, congrArg (· + 1) hlength,
        List.forall_mem_cons.mpr ⟨?_, hbefore⟩, hno⟩
      · rw [List.take_succ_cons, fates, hfates]
        rfl
      · exact (check_meets settings now d s).1.symm.trans (check_eq_true hone h.head)

end Sequence

/-! ## What the checks settle -/

/-- The bucket that a dimension has in the store, refilled and changed, is in writing afterwards. -/
def Leaves (settings : LimiterSettings α) (now : Instant) (d : Dimension)
    (change : Bucket α → Bucket α) (s t : Session) : Prop :=
  let r := requestOn settings now d
  let key := d.storageKey settings.keyPrefix
  ∃ current, s.gate.store.Finds now key r.now current ∧
    s.gate.store.Written now key r.ttlSeconds (change (r.refill (current.getD r.fresh)))
      t.gate.store

/-- All that checks of dimensions do to a session, by the fates of the dimensions. -/
structure Settled (settings : LimiterSettings α) (now : Instant) (fs : List (Dimension × Fate α))
    (s t : Session) : Prop where
  /-- A bucket whose step the store allows is charged one token. -/
  charged : ∀ d outcome, (d, .decided outcome) ∈ fs → outcome.allowed = true →
    Leaves settings now d (fun b => { b with tokens := b.tokens - Quantity.one }) s t
  /-- A bucket whose step the store denies is refilled and not charged. -/
  refilled : ∀ d outcome, (d, .decided outcome) ∈ fs → outcome.allowed = false →
    Leaves settings now d (fun b => b) s t
  /-- No other entry of the store changes. -/
  others : ∀ key,
    (∀ d outcome, (d, .decided outcome) ∈ fs → key ≠ d.storageKey settings.keyPrefix) →
    t.gate.store.entries.get? key = s.gate.store.entries.get? key
  /-- The store is called once for each dimension that asks. -/
  calls : { t.gate with store := s.gate.store } = Gate.next^[fs.countP (·.2.asks)] s.gate
  breaker : t.breaker = fs.foldl
    (fun b p => p.2.breaker settings.breaker (Breaker.reading now) b) s.breaker
  /-- Each fate is counted for its kind. -/
  admission : ∀ kind, t.admission.get kind =
    (fs.filter (·.1.kind = kind)).foldl (fun c p => p.2.counted c) (s.admission.get kind)
  backlog : t.backlog = (fs.filterMap fun p => p.2.decision? p.1.kind).foldl
    (·.offer settings.backlogCapacity) s.backlog

section Settling

variable {settings : LimiterSettings α} {now : Instant} {d : Dimension} {f : Fate α}
  {fs : List (Dimension × Fate α)} {s s' t t' u : Session}

theorem Leaves.congr {change : Bucket α → Bucket α} (h : Leaves settings now d change s t)
    (hbefore : s'.gate.store.entries.get? (d.storageKey settings.keyPrefix) =
      s.gate.store.entries.get? (d.storageKey settings.keyPrefix))
    (hafter : t'.gate.store.entries.get? (d.storageKey settings.keyPrefix) =
      t.gate.store.entries.get? (d.storageKey settings.keyPrefix)) :
    Leaves settings now d change s' t' := by
  obtain ⟨current, hfinds, hwritten⟩ := h
  exact ⟨current, hfinds.congr hbefore, hwritten.congr hbefore hafter⟩

/-- A check changes the entry of its own dimension at most, and that only if the store decides. -/
theorem Meets.others {r : Bucket.Request α} (h : Meets settings now d r f s t) {key : String}
    (hkey : ∀ outcome, f = .decided outcome → key ≠ d.storageKey settings.keyPrefix) :
    t.gate.store.entries.get? key = s.gate.store.entries.get? key := by
  cases hf : f with
  | decided outcome =>
    obtain ⟨_, _, _, hwrites⟩ := h.stepped outcome hf
    exact hwrites.others key (hkey outcome hf)
  | _ => rw [h.kept fun outcome => by rw [hf]; nofun]

/-- A step that the store allows charges one token, and one that it denies none. -/
theorem Meets.leaves {outcome : Bucket.Outcome α}
    (h : Meets settings now d (requestOn settings now d) (.decided outcome) s t) :
    (outcome.allowed = true →
        Leaves settings now d (fun b => { b with tokens := b.tokens - Quantity.one }) s t) ∧
      (outcome.allowed = false → Leaves settings now d (fun b => b) s t) := by
  obtain ⟨current, hfinds, houtcome, hwrites⟩ := h.stepped outcome rfl
  unfold Bucket.Request.apply Bucket.Request.charge at houtcome hwrites
  by_cases henough : (requestOn settings now d).cost ≤
      ((requestOn settings now d).refill (current.getD (requestOn settings now d).fresh)).tokens
  · rw [if_pos henough] at houtcome hwrites
    rw [houtcome]
    exact ⟨fun _ => ⟨current, hfinds, hwrites.entry⟩, nofun⟩
  · rw [if_neg henough] at houtcome hwrites
    rw [houtcome]
    exact ⟨nofun, fun _ => ⟨current, hfinds, hwrites.entry⟩⟩

/-- One check, and then checks of other dimensions. -/
theorem Settled.cons (hfirst : Meets settings now d (requestOn settings now d) f s t)
    (hapart : ∀ p ∈ fs, p.1 ≠ d) (hrest : Settled settings now fs t u) :
    Settled settings now ((d, f) :: fs) s u := by
  have hinjective := Dimension.storageKey_injective settings.keyPrefix
  -- the first check leaves the other buckets alone, and the other checks its own
  have hbefore : ∀ d' outcome, (d', .decided outcome) ∈ fs →
      s.gate.store.entries.get? (d'.storageKey settings.keyPrefix) =
        t.gate.store.entries.get? (d'.storageKey settings.keyPrefix) :=
    fun d' _ hmem => (hfirst.others fun _ _ heq => hapart _ hmem (hinjective heq)).symm
  have hafter : u.gate.store.entries.get? (d.storageKey settings.keyPrefix) =
      t.gate.store.entries.get? (d.storageKey settings.keyPrefix) :=
    hrest.others _ fun d' _ hmem heq => hapart _ hmem (hinjective heq).symm
  constructor
  case charged =>
    intro d' outcome hmem hyes
    rcases List.mem_cons.mp hmem with heq | hmem
    · obtain ⟨rfl, rfl⟩ := Prod.mk.inj heq
      exact (hfirst.leaves.1 hyes).congr rfl hafter
    · exact (hrest.charged d' outcome hmem hyes).congr (hbefore d' outcome hmem) rfl
  case refilled =>
    intro d' outcome hmem hno
    rcases List.mem_cons.mp hmem with heq | hmem
    · obtain ⟨rfl, rfl⟩ := Prod.mk.inj heq
      exact (hfirst.leaves.2 hno).congr rfl hafter
    · exact (hrest.refilled d' outcome hmem hno).congr (hbefore d' outcome hmem) rfl
  case others =>
    intro key hkey
    rw [hrest.others key fun d' outcome hmem => hkey d' outcome (List.mem_cons_of_mem _ hmem)]
    exact hfirst.others fun outcome hf => hkey d outcome (hf ▸ List.mem_cons_self)
  case calls =>
    have hcalls : { u.gate with store := s.gate.store } =
        Gate.next^[fs.countP (·.2.asks)] { t.gate with store := s.gate.store } := by
      rw [Gate.iterate_next_withStore, ← hrest.calls]
    rw [hcalls, hfirst.gate, List.countP_cons]
    split
    · rw [Function.iterate_add_apply]
      rfl
    · rfl
  case breaker => rw [hrest.breaker, hfirst.breaker, List.foldl_cons]
  case admission =>
    intro kind
    rw [hrest.admission, hfirst.admission, List.filter_cons]
    by_cases hkind : kind = d.kind
    · rw [if_pos hkind, if_pos (decide_eq_true hkind.symm), List.foldl_cons]
    · rw [if_neg hkind, if_neg (by simpa using Ne.symm hkind)]
  case backlog =>
    rw [hrest.backlog, hfirst.backlog, List.filterMap_cons]
    cases f.decision? d.kind <;> rfl

theorem mem_of_mem_fates {dims : List Dimension} {p : Dimension × Fate α}
    (hp : p ∈ fates settings now dims s) : p.1 ∈ dims := by
  induction dims generalizing s with
  | nil => cases hp
  | cons d rest ih =>
    rcases List.mem_cons.mp hp with rfl | hp
    · exact List.mem_cons_self
    · exact List.mem_cons_of_mem _ (ih hp)

/-- Checks of different dimensions settle them by their fates. -/
theorem settled {dims : List Dimension} (hnodup : dims.Nodup) (s : Session) :
    Settled settings now (fates settings now dims s) s (afterChecks settings now dims s) := by
  induction dims generalizing s with
  | nil => exact ⟨nofun, nofun, fun _ _ => rfl, rfl, rfl, fun _ => rfl, rfl⟩
  | cons d rest ih =>
    obtain ⟨hd, hrest⟩ := List.nodup_cons.mp hnodup
    exact .cons (check_meets settings now d s).2
      (fun p hp heq => hd (heq ▸ mem_of_mem_fates hp)) (ih hrest _)

end Settling

/-! ## Requests -/

theorem nodup_dimensionsOf (ip : String) (user : Option String) (endpoint : String) :
    (dimensionsOf ip user endpoint).Nodup := by
  have hkinds : ((dimensionsOf ip user endpoint).map Dimension.kind).Nodup := by
    cases user with
    | none =>
      show [DimensionKind.global, .ip, .endpoint].Nodup
      decide
    | some _ =>
      show [DimensionKind.global, .ip, .user, .endpoint].Nodup
      decide
  exact hkinds.of_map _

/-- **Only the store rejects, and nothing is done behind a rejection.**  A request is rejected
exactly if the store denies it an enabled dimension with valid parameters while the breaker admits
the call, after all dimensions before it have let the request in.  Then the checks have settled the
dimensions up to that one: each of those before it whose bucket the store has decided on is charged
one token, its own is refilled and not charged, and calls, counters and breaker are as these checks
leave them.  Otherwise all dimensions have been settled.  A check that the parameters or the breaker
keep from the store lets the request in and makes no call. -/
theorem checkAll_settles (hone : isCost (Quantity.one : α) = true) (settings : LimiterSettings α)
    (now : Instant) (ip : String) (user : Option String) (endpoint : String) (s : Session) :
    let dims : List Dimension := match user with
      | none => [.global, ⟨.ip, ip⟩, ⟨.endpoint, endpoint⟩]
      | some u => [.global, ⟨.ip, ip⟩, ⟨.user, u⟩, ⟨.endpoint, endpoint⟩]
    let r := checkAll settings now ip user endpoint s
    (r.1 = false ↔ ∃ k, RejectsFirst settings now dims s k) ∧
      (r.1 = true → r.2 = afterChecks settings now dims s ∧
        Settled settings now (fates settings now dims s) s r.2) ∧
      (∀ k, RejectsFirst settings now dims s k →
        r.2 = afterChecks settings now (dims.take (k + 1)) s ∧
        ∃ before d outcome, before.length = k ∧ (∀ p ∈ before, p.2.allowed = true) ∧
          outcome.allowed = false ∧
          fates settings now (dims.take (k + 1)) s = before ++ [(d, .decided outcome)] ∧
          Settled settings now (before ++ [(d, .decided outcome)]) s r.2) ∧
      ∀ d u, (settings.allowances.get d.kind).isValid = false ∨
          (u.breaker.allow settings.breaker (Breaker.reading now)).1 = false →
        (check settings now d u).1 = true ∧ (check settings now d u).2.gate = u.gate := by
  intro dims r
  have hdims : dimensionsOf ip user endpoint = dims := by cases user <;> rfl
  have hnodup : dims.Nodup := hdims ▸ nodup_dimensionsOf ip user endpoint
  have hr : r = checkEach settings now dims s := by
    rw [← hdims]
    rfl
  have hstop : ∀ k, RejectsFirst settings now dims s k →
      r = (false, afterChecks settings now (dims.take (k + 1)) s) :=
    fun k hk => hr.trans (checkEach_of_rejectsFirst hone hk)
  have hpass : (∀ k, ¬ RejectsAt settings now dims s k) →
      r = (true, afterChecks settings now dims s) :=
    fun hnone => hr.trans (checkEach_of_none hone hnone)
  refine ⟨⟨fun hno => ?_, fun ⟨k, hk⟩ => congrArg Prod.fst (hstop k hk)⟩, fun hyes => ?_,
    fun k hk => ?_, fun d u => check_of_not_asked⟩
  · by_contra hnone
    have hyes := congrArg Prod.fst
      (hpass fun k hk => hnone (exists_rejectsFirst hk))
    exact absurd (hno.symm.trans hyes) nofun
  · have hafter : r.2 = afterChecks settings now dims s := by
      refine congrArg Prod.snd (hpass fun k hk => ?_)
      obtain ⟨j, hj⟩ := exists_rejectsFirst hk
      exact absurd (hyes.symm.trans (congrArg Prod.fst (hstop j hj))) nofun
    rw [hafter]
    exact ⟨rfl, settled hnodup s⟩
  · have hafter : r.2 = afterChecks settings now (dims.take (k + 1)) s :=
      congrArg Prod.snd (hstop k hk)
    obtain ⟨before, d, outcome, hfates, hlength, hbefore, hno⟩ := fates_of_rejectsFirst hone hk
    refine ⟨hafter, before, d, outcome, hlength, hbefore, hno, hfates, ?_⟩
    rw [hafter, ← hfates]
    exact settled (hnodup.sublist (List.take_sublist _ _)) s

/-- Settings under which the address takes no part, the user has one token, and the parameters of
the endpoint are useless. -/
def onePerUser : LimiterSettings ℚ :=
  { (.standard : LimiterSettings ℚ) with
    allowances := ⟨.of 5 5 60, .disabled, .of 1 1 60, .of 0 1 60⟩ }

/-- A user's second request within a minute is rejected: the user is the third dimension, after one
that the store lets in and one that takes no part.  One token is a cost for doubles, too. -/
theorem checkAll_settles_onePerUser :
    let dims : List Dimension := [.global, ⟨.ip, "10.0.0.1"⟩, ⟨.user, "ann"⟩, ⟨.endpoint, "/pay"⟩]
    let request := @checkAll ℚ _ Quantity.fractions onePerUser ⟨0⟩ "10.0.0.1" (some "ann") "/pay"
    isCost (Quantity.one : ℚ) = true ∧ isCost (Quantity.one : Float) = true ∧
      (request unused).1 = true ∧
      (request (request unused).2).1 = false ∧
      ∃ k, @RejectsFirst ℚ _ Quantity.fractions onePerUser ⟨0⟩ dims (request unused).2 k := by
  intro dims request
  have hone : isCost (Quantity.one : ℚ) = true := by decide
  have hyes : (request unused).1 = true := by decide +kernel
  have hno : (request (request unused).2).1 = false := by decide +kernel
  exact ⟨hone, rfl, hyes, hno, (@checkAll_settles ℚ _ Quantity.fractions hone onePerUser ⟨0⟩ "10.0.0.1"
    (some "ann") "/pay" (request unused).2).1.mp hno⟩

end Bulwark.Limiter
