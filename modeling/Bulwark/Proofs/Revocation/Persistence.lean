import Bulwark.Proofs.Revocation.Run
import Bulwark.Proofs.Revocation.Sweep
import Bulwark.Proofs.Store.Deadline

/-!
# Revocations that last

Once a revocation has been written it stays in the store until its time is over, unless somebody
revokes the token again or lifts its revocation.  Calls for other tokens, lookups, listings and
sweeps leave what can be seen under its key (`perform_sameAt`); a sweep does so because the entry is
read as it was written, so it is not stale as long as its time is not over.  An enquiry then gives
back what was written, and the time that is left (`revocation_lasts`).
-/

namespace Bulwark.Blacklist

/-! ## What calls leave as it is -/

/-- What can be seen under a key is the same in two sessions. -/
def SameAt (now : Instant) (key : String) (s t : Session) : Prop :=
  t.gate.store.visible? now key = s.gate.store.visible? now key

/-- An action ends, and leaves what can be seen under a key. -/
def LeavesAt {β : Type} (now : Instant) (key : String) (x : Action β) : Prop :=
  ∀ s, Ends x s fun _ t => SameAt now key s t

namespace LeavesAt

variable {β γ : Type} {now : Instant} {key : String}

theorem pure (answer : β) : LeavesAt now key (pure answer) := fun _ => Ends.pure rfl

theorem bind {x : Action β} {f : β → Action γ} (hx : LeavesAt now key x)
    (hf : ∀ answer, LeavesAt now key (f answer)) : LeavesAt now key (x >>= f) := fun s =>
  Ends.bind ((hx s).mono fun answer t ht => (hf answer t).mono fun _ _ hu => hu.trans ht)

theorem map {x : Action β} {f : β → γ} (hx : LeavesAt now key x) :
    LeavesAt now key (do return f (← x)) :=
  hx.bind fun _ => .pure _

theorem report (events : List Event) : LeavesAt now key (report events) :=
  fun _ => Ends.report rfl

theorem count (f : RevocationCount → RevocationCount) : LeavesAt now key (count f) :=
  fun _ => Ends.count rfl

theorem ofClock (hnow : now.IsDated) : LeavesAt now key (Timestamp.ofClock now) :=
  fun _ => Ends.ofClock hnow rfl

theorem get_bind {f : Session → Action β} (hf : ∀ s, LeavesAt now key (f s)) :
    LeavesAt now key (get >>= f) := fun s => Ends.bind (Ends.get (hf s s))

theorem callStore {operation : Store → Store.Result β}
    (h : ∀ store : Store, (operation store).2.visible? now key = store.visible? now key) :
    LeavesAt now key (callStore operation) := by
  intro s
  refine Ends.callStore (fun e t _ hstore => ?_) fun t _ hstore => ?_
  · unfold SameAt
    rw [hstore]
  · unfold SameAt
    rw [hstore, h]

theorem get_key (k : String) : LeavesAt now key (Blacklist.callStore (·.get now k)) :=
  .callStore fun _ => Store.visible?_get (Instant.le_refl now)

end LeavesAt

section Calls

variable {b : Blacklist} {now : Instant} {key : String} {token : String}

theorem add_leavesAt (hnow : now.IsDated) (hkey : key ≠ b.key token) (reason : String)
    (ttlSeconds : ℕ) : LeavesAt now key (b.add now token reason ttlSeconds) := by
  unfold add
  split
  · exact .pure _
  · refine (LeavesAt.ofClock hnow).bind fun date => ?_
    refine (LeavesAt.callStore fun store => ?_).bind fun answer => ?_
    · rw [Store.visible?_set, if_neg hkey]
    · cases answer with
      | error e => exact .pure _
      | ok _ => exact (LeavesAt.report _).bind fun _ => (LeavesAt.count _).bind fun _ => .pure _

theorem addOrLog_leavesAt (hnow : now.IsDated) (hkey : key ≠ b.key token) (reason : String)
    (ttlSeconds : ℕ) : LeavesAt now key (b.addOrLog now token reason ttlSeconds) := by
  refine (add_leavesAt hnow hkey reason ttlSeconds).bind fun answer => ?_
  cases answer with
  | ok _ => exact .pure _
  | error fault => exact (LeavesAt.report _).bind fun _ => .pure _

theorem addEach_leavesAt (hnow : now.IsDated) {tokens : List String}
    (hkeys : ∀ t ∈ tokens, key ≠ b.key t) (reason : String) (ttlSeconds : ℕ) :
    LeavesAt now key (b.addEach now reason ttlSeconds tokens) := by
  induction tokens with
  | nil => exact .pure _
  | cons t rest ih =>
    have hrest := ih fun u hu => hkeys u (List.mem_cons_of_mem t hu)
    refine (add_leavesAt hnow (hkeys t List.mem_cons_self) reason ttlSeconds).bind fun answer => ?_
    cases answer with
    | ok _ => exact (LeavesAt.pure _).bind fun _ => hrest.map
    | error fault =>
      exact (LeavesAt.report _).bind fun _ => (LeavesAt.pure _).bind fun _ => hrest.map

theorem isRevoked_leavesAt (hnow : now.IsDated) (t : String) :
    LeavesAt now key (b.isRevoked now t) := by
  have hrevokes : ∀ text, LeavesAt now key (revokes now text) := by
    intro text
    unfold revokes
    split
    · exact .pure _
    · exact (LeavesAt.ofClock hnow).map
  unfold isRevoked
  split
  · exact .pure _
  · refine (LeavesAt.get_key _).bind fun answer => ?_
    match answer with
    | .error e => exact (LeavesAt.report _).bind fun _ => (LeavesAt.count _).bind fun _ => .pure _
    | .ok none => exact (LeavesAt.count _).bind fun _ => .pure _
    | .ok (some text) =>
      exact (hrevokes text).bind fun _ => (LeavesAt.count _).bind fun _ => .pure _

theorem info_leavesAt (hnow : now.IsDated) (t : String) : LeavesAt now key (b.info now t) := by
  unfold info
  split
  · exact .pure _
  · refine (LeavesAt.get_key _).bind fun answer => ?_
    match answer with
    | .error e => exact .pure _
    | .ok none => exact .pure _
    | .ok (some text) =>
      dsimp only
      split
      · exact .pure _
      · refine (LeavesAt.ofClock hnow).bind fun date => ?_
        split
        · exact .pure _
        · refine (LeavesAt.callStore fun _ => Store.visible?_ttl (Instant.le_refl now)).bind
            fun answer => ?_
          split <;> exact .pure _

theorem remove_leavesAt (hkey : key ≠ b.key token) : LeavesAt now key (b.remove now token) := by
  unfold remove
  split
  · exact .pure _
  · refine (LeavesAt.callStore fun store => ?_).bind fun answer => ?_
    · rw [Store.visible?_delete, if_neg hkey]
    · match answer with
      | .error e => exact .pure _
      | .ok false => exact .pure _
      | .ok true => exact (LeavesAt.report _).bind fun _ => (LeavesAt.count _).bind fun _ => .pure _

theorem listFrom_leavesAt (fuel cursor : ℕ) (seen : List String) :
    LeavesAt now key (b.listFrom now fuel cursor seen) := by
  have hpage : ∀ cursor, LeavesAt now key (b.scanPage now cursor) := by
    intro cursor s
    show Ends (callStore (·.scan s.gate.position now b.keyPrefix cursor pageSize)) s _
    exact LeavesAt.callStore (fun _ => rfl) s
  induction fuel generalizing cursor seen with
  | zero => exact .pure _
  | succ fuel ih =>
    rw [listFrom_succ]
    refine (hpage cursor).bind fun answer => ?_
    cases answer with
    | error e => exact (LeavesAt.report _).bind fun _ => .pure _
    | ok page =>
      unfold listPage
      dsimp only
      split
      · exact .pure _
      · exact ih _ _

theorem listAll_leavesAt : LeavesAt now key (b.listAll now) :=
  .get_bind fun _ => listFrom_leavesAt _ 0 []

/-- A sweep leaves every entry that is not stale. -/
theorem sweep_sameAt {s : Session} (hnow : now.IsDated)
    (hfresh : ∀ e, s.gate.store.visible? now key = some e → staleEntry now e = false) :
    Ends (b.sweep now) s fun _ t => SameAt now key s t := by
  refine (sweep_makes hnow.inRange).mono fun _ t hsweep => ?_
  obtain ⟨made, hmade, hswept, -⟩ := hsweep
  have hkey : key ∉ made.reduceOption := by
    intro hkey
    obtain ⟨-, e, hvisible, hstale⟩ := staleUnder_of_mem hmade hkey
    rw [hfresh e hvisible] at hstale
    cases hstale
  unfold SameAt Store.visible?
  rw [hswept.kept key hkey]

/-- A call that neither revokes a token nor lifts its revocation. -/
def Call.Spares (token : String) : Call → Prop
  | .add t _ _ => t ≠ token
  | .addOrLog t _ _ => t ≠ token
  | .addEach ts _ _ => token ∉ ts
  | .remove t => t ≠ token
  | _ => True

/-- A call that spares a token leaves what can be seen under its key, if that is not stale. -/
theorem perform_sameAt {s : Session} {call : Call} (hnow : now.IsDated)
    (hspares : call.Spares token)
    (hfresh : ∀ e, s.gate.store.visible? now (b.key token) = some e → staleEntry now e = false) :
    Ends (b.perform now call) s fun _ t => SameAt now (b.key token) s t := by
  have hother : ∀ t, t ≠ token → b.key token ≠ b.key t := by
    intro t ht heq
    unfold Blacklist.key at heq
    exact ht ((String.append_right_inj _).mp heq).symm
  cases call with
  | add t reason ttl => exact (add_leavesAt hnow (hother t hspares) reason ttl).map s
  | addOrLog t reason ttl => exact (addOrLog_leavesAt hnow (hother t hspares) reason ttl).map s
  | addEach ts reason ttl =>
    refine (addEach_leavesAt hnow (fun t ht => hother t ?_) reason ttl).map s
    rintro rfl
    exact hspares ht
  | isRevoked t => exact (isRevoked_leavesAt hnow t).map s
  | info t => exact (info_leavesAt hnow t).map s
  | remove t => exact (remove_leavesAt (hother t hspares)).map s
  | listAll => exact listAll_leavesAt.map s
  | sweep => exact Ends.map (sweep_sameAt hnow hfresh)

end Calls

/-! ## Revocations that last -/

/-- What a store keeps for a revocation. -/
def storedFor (since : Instant) (reason : String) (ttlSeconds : ℕ) : StoredEntry :=
  ⟨.text (BlacklistEntry.of since reason ttlSeconds).render, since.later? (.ofSeconds ttlSeconds)⟩

/-- What is left of a lifetime, where a clock can show the end of it. -/
def remainingAt (since : Instant) (ttlSeconds : ℕ) (now : Instant) : Option Duration :=
  if Instant.isHeld ⟨since.nanos + ttlSeconds * nanosPerSecond⟩ then
    some ⟨(since.nanos + ttlSeconds * nanosPerSecond - now.nanos).toNat⟩
  else none

/-- Readers see an entry under a key as long as it is live. -/
def Holds (now : Instant) (key : String) (e : StoredEntry) (g : Gate) : Prop :=
  g.store.visible? now key = (some e).filter (·.isLive now)

/-- In a run nobody revokes a token or lifts its revocation, and nobody else touches its key. -/
structure Quiet (keyPrefix token : String) (hs : List Happening) : Prop where
  spares : ∀ t, .turn t ∈ hs → t.call.Spares token
  apart : ∀ change, .outside change ∈ hs → ∀ g : Gate,
    (change g).store.entries.get? (keyPrefix ++ token) =
      g.store.entries.get? (keyPrefix ++ token)

theorem Quiet.tail {keyPrefix token : String} {h : Happening} {hs : List Happening}
    (hquiet : Quiet keyPrefix token (h :: hs)) : Quiet keyPrefix token hs where
  spares t ht := hquiet.spares t (List.mem_cons_of_mem h ht)
  apart change hchange := hquiet.apart change (List.mem_cons_of_mem h hchange)

section Lasting

variable {b : Blacklist} {since now last : Instant} {token reason : String} {ttlSeconds : ℕ}

theorem isExpiredAt_eq_false (hsince : since.IsDated) (hnow : now.IsDated)
    (htime : now.nanos < since.nanos + ttlSeconds * nanosPerSecond) :
    (BlacklistEntry.of since reason ttlSeconds).isExpiredAt now.date = false := by
  rw [Bool.eq_false_iff, Ne, BlacklistEntry.isExpiredAt_iff hsince.inRange hnow]
  omega

/-- The entry of a revocation whose time is not over is not stale. -/
theorem staleEntry_storedFor (hsince : since.IsDated) (hnow : now.IsDated)
    (httl : ttlSeconds ≤ Text.maxUnsigned)
    (hlive : (storedFor since reason ttlSeconds).isLive now = true) :
    staleEntry now (storedFor since reason ttlSeconds) = false := by
  have htime := (BlacklistEntry.isLive_deadline_iff hsince.inRange hnow _).mp hlive
  unfold staleEntry storedFor
  simp only [BlacklistEntry.read?_render_of hsince httl,
    isExpiredAt_eq_false hsince hnow htime, Bool.false_and]

theorem Holds.later {key : String} {e : StoredEntry} {g : Gate} (h : Holds last key e g)
    (hle : last ≤ now) : Holds now key e g := by
  unfold Holds at h ⊢
  rw [Store.visible?_later hle, h, Store.filter_isLive_later hle]

/-- No sweep takes an entry as long as it is held. -/
theorem Holds.fresh {key : String} {g : Gate} (hsince : since.IsDated) (hnow : now.IsDated)
    (httl : ttlSeconds ≤ Text.maxUnsigned)
    (h : Holds now key (storedFor since reason ttlSeconds) g) :
    ∀ e, g.store.visible? now key = some e → staleEntry now e = false := by
  intro e hvisible
  rw [h, Option.filter_eq_some_iff] at hvisible
  obtain ⟨heq, hlive⟩ := hvisible
  obtain rfl := Option.some.inj heq
  exact staleEntry_storedFor hsince hnow httl hlive

/-- A revocation is held through every run that leaves it alone. -/
theorem gateAfter_holds (hsince : since.IsDated) (hnow : now.IsDated)
    (httl : ttlSeconds ≤ Text.maxUnsigned) {hs : List Happening} {g : Gate}
    (hquiet : Quiet b.keyPrefix token hs) (hlast : last.IsDated)
    (hsorted : (last :: (times hs ++ [now])).Pairwise (· ≤ ·))
    (hholds : Holds last (b.key token) (storedFor since reason ttlSeconds) g) :
    ∃ g', gateAfter b.keyPrefix g hs = .ok g' ∧
      Holds now (b.key token) (storedFor since reason ttlSeconds) g' := by
  induction hs generalizing g last with
  | nil =>
    exact ⟨g, rfl, hholds.later ((List.pairwise_cons.mp hsorted).1 now List.mem_cons_self)⟩
  | cons happening rest ih =>
    cases happening with
    | outside change =>
      refine ih hquiet.tail hlast hsorted ?_
      unfold Holds Store.visible? at hholds ⊢
      rw [← hholds]
      exact congrArg _ (hquiet.apart change List.mem_cons_self g)
    | turn t =>
      obtain ⟨hfirst, hrest⟩ := List.pairwise_cons.mp hsorted
      have hle : last ≤ t.now := hfirst t.now List.mem_cons_self
      have ht : t.now.IsDated := .of_between hlast.inRange hle
        ((List.pairwise_cons.mp hrest).1 now (List.mem_append_right _ List.mem_cons_self)) hnow
      have hheld := hholds.later hle
      obtain ⟨_, after, heq, hsame⟩ :=
        perform_sameAt (b := ⟨b.keyPrefix, t.failureMode⟩) (s := ⟨g, t.counts, []⟩) ht
          (hquiet.spares t List.mem_cons_self) (hheld.fresh hsince ht httl)
      obtain ⟨g', hgate, hg'⟩ := ih hquiet.tail ht hrest (hsame.trans hheld)
      refine ⟨g', ?_, hg'⟩
      simp only [gateAfter, heq]
      exact hgate

/-- A revocation that worked had a date. -/
theorem inRange_of_add {s t : Session}
    (h : b.add since token reason ttlSeconds s = .ok (.ok (), t)) :
    Timestamp.inRange since.second = true := by
  unfold add at h
  cases haccepted : rejection? token reason ttlSeconds with
  | some fault =>
    rw [haccepted] at h
    cases h
  | none =>
    rw [haccepted] at h
    exact inRange_of_ofClock h

/-- A revocation that worked is of a token that is not blank, and held from then on. -/
theorem holds_of_add {s t : Session} (hsince : since.IsDated)
    (hadd : b.add since token reason ttlSeconds s = .ok (.ok (), t)) :
    Text.allBlank token = false ∧
      Holds since (b.key token) (storedFor since reason ttlSeconds) t.gate := by
  have hends : Ends (b.add since token reason ttlSeconds) s fun answer u => answer = .ok () →
      Text.allBlank token = false ∧
        Holds since (b.key token) (storedFor since reason ttlSeconds) u.gate := by
    unfold add
    split
    · exact Ends.pure nofun
    · rename_i haccepted
      refine Ends.bind (Ends.ofClock hsince (Ends.bind (Ends.callStore ?_ ?_)))
      · exact fun e u _ _ => Ends.pure nofun
      · intro u _ hstore
        refine Ends.bind (Ends.report (Ends.bind (Ends.count (Ends.pure fun _ => ⟨?_, ?_⟩))))
        · unfold rejection? at haccepted
          split at haccepted
          · cases haccepted
          · rename_i hblank
            exact Bool.eq_false_iff.mpr hblank
        · show u.gate.store.visible? since (b.key token) = _
          rw [hstore, Store.visible?_set, if_pos rfl]
          rfl
  obtain ⟨_, _, heq, hheld⟩ := hends
  obtain ⟨rfl, rfl⟩ := Prod.mk.inj (Except.ok.inj (hadd.symm.trans heq))
  exact hheld rfl

/-- The store tells what is left of the lifetime of a revocation. -/
theorem ttlAnswer_storedFor (htime : now.nanos < since.nanos + ttlSeconds * nanosPerSecond) :
    Store.ttlAnswer now (some (storedFor since reason ttlSeconds)) =
      match remainingAt since ttlSeconds now with
      | some remaining => .expires remaining
      | none => .persistent := by
  have hsum : ((Duration.ofSeconds ttlSeconds).nanos : Int) = ttlSeconds * nanosPerSecond :=
    Int.natCast_mul _ _
  have hwithin : Store.isWithin since (some (.ofSeconds ttlSeconds)) now = true := by
    refine decide_eq_true ?_
    rw [hsum]
    exact htime
  have hanswer : Store.ttlAnswer now (some (storedFor since reason ttlSeconds)) =
      Store.ttlFrom since (some (.ofSeconds ttlSeconds)) now := by
    rw [← Store.ttlAnswer_bind_later? (storedFor since reason ttlSeconds).value, if_pos hwithin]
    rfl
  rw [hanswer]
  unfold Store.ttlFrom remainingAt
  rw [if_pos hwithin]
  simp only [hsum]
  split <;> rfl

/-- An enquiry about a revocation that is held, while the store is there. -/
theorem info_of_holds {s : Session} (hsince : since.IsDated) (hnow : now.IsDated)
    (httl : ttlSeconds ≤ Text.maxUnsigned) (hblank : Text.allBlank token = false)
    (htime : now.nanos < since.nanos + ttlSeconds * nanosPerSecond) (hopen : s.gate.IsOpen)
    (hholds : Holds now (b.key token) (storedFor since reason ttlSeconds) s.gate) :
    Ends (b.info now token) s fun answer _ => answer =
      .ok (some ⟨.of since reason ttlSeconds, remainingAt since ttlSeconds now⟩) := by
  have hlive : (storedFor since reason ttlSeconds).isLive now = true :=
    (BlacklistEntry.isLive_deadline_iff hsince.inRange hnow _).mpr htime
  have hvisible : s.gate.store.visible? now (b.key token) =
      some (storedFor since reason ttlSeconds) := by
    rw [hholds, Option.filter_some, if_pos hlive]
  unfold info
  rw [hblank]
  -- the entry is read, and then its lifetime is asked for
  refine Ends.bind (Ends.callStore_open hopen fun t hopen hstore => ?_)
  rw [Store.get_of_text hvisible] at hstore ⊢
  dsimp only
  rw [BlacklistEntry.read?_render_of hsince httl]
  refine Ends.bind (Ends.ofClock hnow ?_)
  rw [isExpiredAt_eq_false hsince hnow htime, if_neg Bool.false_ne_true]
  refine Ends.bind (Ends.callStore_open hopen fun u _ _ => ?_)
  rw [hstore, Store.ttl_of_visible hvisible, ttlAnswer_storedFor htime]
  dsimp only
  cases remainingAt since ttlSeconds now <;> exact Ends.pure rfl

end Lasting

/-- **Revocations last.**  What is written of an entry is read as that entry, for every reason, date
and lifetime.  So a revocation that worked is there until its time is over, through every run in
which nobody revokes the token or lifts its revocation: while the store is there, an enquiry gives
back the reason, the date and the lifetime, and the time that is left where a clock can show its
end. -/
theorem revocation_lasts :
    (∀ e : BlacklistEntry, e.insertedAt.nano < nanosPerSecond →
      Timestamp.inRange e.insertedAt.second = true → e.ttlSeconds ≤ Text.maxUnsigned →
      BlacklistEntry.read? e.render = some e) ∧
    ∀ (b : Blacklist) (s t : Session) (since now : Instant) (token reason : String)
      (ttlSeconds : ℕ) (hs : List Happening),
      b.add since token reason ttlSeconds s = .ok (.ok (), t) → ttlSeconds ≤ Text.maxUnsigned →
      (since :: (times hs ++ [now])).Pairwise (· ≤ ·) → now.IsDated →
      Quiet b.keyPrefix token hs → now.nanos < since.nanos + ttlSeconds * nanosPerSecond →
      ∃ g, gateAfter b.keyPrefix t.gate hs = .ok g ∧
        (g.IsOpen → ∀ counts events, ∃ u, b.info now token ⟨g, counts, events⟩ =
          .ok (.ok (some ⟨⟨reason, since.date, ttlSeconds⟩, remainingAt since ttlSeconds now⟩),
            u)) := by
  refine ⟨fun e hnano hrange httl => BlacklistEntry.read?_render hnano hrange httl, ?_⟩
  intro b s t since now token reason ttlSeconds hs hadd httl hsorted hnow hquiet htime
  have hle : since ≤ now :=
    (List.pairwise_cons.mp hsorted).1 now (List.mem_append_right _ List.mem_cons_self)
  have hsince : since.IsDated :=
    .of_between (inRange_of_add hadd) (Instant.le_refl since) hle hnow
  obtain ⟨hblank, hholds⟩ := holds_of_add hsince hadd
  obtain ⟨g, hgate, hg⟩ := gateAfter_holds hsince hnow httl hquiet hsince hsorted hholds
  refine ⟨g, hgate, fun hopen counts events => ?_⟩
  obtain ⟨_, u, hinfo, rfl⟩ :=
    info_of_holds (s := ⟨g, counts, events⟩) hsince hnow httl hblank htime hopen hg
  exact ⟨u, hinfo⟩

/-- Another token is revoked, the store goes away and comes back, and twice there is a sweep. -/
def sweptTwice : List Happening :=
  [.turn ⟨.failSafe, .zero, ⟨0⟩, .add "77a0" "logout" 5⟩,
    .outside fun g => { g with failing := true },
    .turn ⟨.failClosed, .zero, ⟨3000000000⟩, .sweep⟩,
    .outside fun g => { g with failing := false },
    .turn ⟨.failSafe, .zero, ⟨6000000000⟩, .sweep⟩,
    .turn ⟨.failSafe, .zero, ⟨7000000000⟩, .isRevoked "4fd1c2b7"⟩]

theorem quiet_sweptTwice : Quiet "auth:blacklist:" "4fd1c2b7" sweptTwice where
  spares t ht := by
    simp only [sweptTwice, List.mem_cons, Happening.turn.injEq, List.not_mem_nil, or_false,
      reduceCtorEq, false_or] at ht
    rcases ht with rfl | rfl | rfl | rfl
    · exact (by decide : "77a0" ≠ "4fd1c2b7")
    · trivial
    · trivial
    · trivial
  apart change hchange g := by
    simp only [sweptTwice, List.mem_cons, Happening.outside.injEq, List.not_mem_nil, or_false,
      reduceCtorEq, false_or] at hchange
    rcases hchange with rfl | rfl <;> rfl

/-- A revocation from just before the epoch, in that run, a nanosecond before its time is over. -/
theorem revocation_lasts_sweptTwice :
    let b : Blacklist := ⟨"auth:blacklist:", .failSafe⟩
    let s : Session := ⟨.opened (fun _ => 0) .empty, .zero, []⟩
    let e : BlacklistEntry := ⟨"stolen\n\"twice\"", ⟨-1, 999999999⟩, 60⟩
    BlacklistEntry.read? e.render = some e ∧
    ∃ t, b.add ⟨-1⟩ "4fd1c2b7" e.reason 60 s = .ok (.ok (), t) ∧
      Quiet b.keyPrefix "4fd1c2b7" sweptTwice ∧
      ∃ g, gateAfter b.keyPrefix t.gate sweptTwice = .ok g ∧ g.IsOpen ∧
        ∃ u, b.info ⟨59999999998⟩ "4fd1c2b7" ⟨g, .zero, []⟩ =
          .ok (.ok (some ⟨e, some ⟨1⟩⟩), u) := by
  intro b s e
  obtain ⟨hread, hlasts⟩ := revocation_lasts
  obtain ⟨t, hadd⟩ : ∃ t, b.add ⟨-1⟩ "4fd1c2b7" e.reason 60 s = .ok (.ok (), t) := by
    have haccepted : rejection? "4fd1c2b7" e.reason 60 = none := by decide +kernel
    unfold add
    rw [haccepted]
    exact ⟨_, rfl⟩
  obtain ⟨g, hgate, hinfo⟩ := hlasts b s t ⟨-1⟩ ⟨59999999998⟩ "4fd1c2b7" e.reason 60 sweptTwice
    hadd (by decide) (by decide) ⟨by decide, by decide⟩ quiet_sweptTwice (by decide)
  have hopen : g.IsOpen := by
    have hrun : (b.add ⟨-1⟩ "4fd1c2b7" e.reason 60 s).toOption.all (fun p =>
        (gateAfter b.keyPrefix p.2.gate sweptTwice).toOption.all fun g =>
          g.plan.isEmpty && !g.failing) = true := by decide +kernel
    rw [hadd] at hrun
    simp only [Except.toOption, Option.all_some, hgate, Bool.and_eq_true, List.isEmpty_iff,
      Bool.not_eq_true'] at hrun
    exact ⟨hrun.1, hrun.2⟩
  exact ⟨hread e (by decide) (by decide) (by decide), t, hadd, quiet_sweptTwice, g, hgate, hopen,
    hinfo hopen .zero []⟩

end Bulwark.Blacklist
