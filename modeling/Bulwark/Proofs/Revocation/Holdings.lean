import Bulwark.Proofs.Revocation.History
import Bulwark.Proofs.Revocation.Persistence
import Bulwark.Proofs.Store.Border

/-!
# What a store holds under the prefix

Revocations are all that calls write under their prefix, and a revocation is only written with the
date of its moment.  So whatever is found there after a run is the entry of some revocation of a
token that is not blank, made in the calendar and not later than now (`KeepsRevocations`).  Every
call keeps that (`perform_keeps`), and so does every run, whether or not its calls fail
(`gateAfter_keeps`).

Such an entry has not lapsed as long as its key is live.  For a lookup there is then nothing to an
entry but its being there (`isRevoked_of_keeps`).
-/

namespace Bulwark.Blacklist

/-! ## Entries of revocations -/

/-- What a store may hold for a token: the entry of a revocation. -/
def IsRevocationOf (token : String) (last : Instant) (e : StoredEntry) : Prop :=
  Text.allBlank token = false ∧ ∃ since reason ttlSeconds,
    e = storedFor since reason ttlSeconds ∧ since.IsDated ∧ since ≤ last ∧
      ttlSeconds ≤ Text.maxUnsigned

/-- Under a prefix a store holds revocations and nothing else. -/
def KeepsRevocations (keyPrefix : String) (last : Instant) (s : Store) : Prop :=
  ∀ token e, s.entries.get? (keyPrefix ++ token) = some e → IsRevocationOf token last e

namespace KeepsRevocations

variable {keyPrefix token : String} {last now : Instant} {s t : Store} {e : StoredEntry}

theorem of_absent (h : ∀ token, s.entries.get? (keyPrefix ++ token) = none) (last : Instant) :
    KeepsRevocations keyPrefix last s := by
  intro token e he
  rw [h] at he
  cases he

theorem later (h : KeepsRevocations keyPrefix last s) (hle : last ≤ now) :
    KeepsRevocations keyPrefix now s := by
  intro token e he
  obtain ⟨hblank, since, reason, ttlSeconds, heq, hsince, hlast, httl⟩ := h token e he
  have hnow : since ≤ now := Int.le_trans hlast hle
  exact ⟨hblank, since, reason, ttlSeconds, heq, hsince, hnow, httl⟩

/-- Removing entries leaves revocations. -/
theorem of_removal (h : KeepsRevocations keyPrefix last s)
    (hremoves : Store.Change.removal.allows s t) : KeepsRevocations keyPrefix last t :=
  fun token e he => h token e (hremoves _ e he)

/-- Another revocation is written. -/
theorem put (h : KeepsRevocations keyPrefix last s) (he : IsRevocationOf token last e) :
    KeepsRevocations keyPrefix last (s.put (keyPrefix ++ token) e.value e.deadline) := by
  intro other e' he'
  unfold Store.put at he'
  rw [Table.get?_insert] at he'
  split at he'
  · rename_i heq
    obtain rfl : other = token := (String.append_right_inj _).mp heq
    obtain rfl := Option.some.inj he'
    exact he
  · exact h other e' he'

end KeepsRevocations

/-! ## Calls -/

/-- An action that ends has kept revocations under the prefix. -/
def Keeps {β : Type} (keyPrefix : String) (now : Instant) (x : Action β) : Prop :=
  ∀ s : Session, KeepsRevocations keyPrefix now s.gate.store →
    IfEnds x s fun _ t => KeepsRevocations keyPrefix now t.gate.store

namespace Keeps

variable {β γ : Type} {keyPrefix : String} {now : Instant}

theorem pure (answer : β) : Keeps keyPrefix now (pure answer) := fun _ h => IfEnds.pure h

theorem bind {x : Action β} {f : β → Action γ} (hx : Keeps keyPrefix now x)
    (hf : ∀ answer, Keeps keyPrefix now (f answer)) : Keeps keyPrefix now (x >>= f) :=
  fun s h => IfEnds.bind ((hx s h).mono fun answer t ht => hf answer t ht)

theorem map {x : Action β} {f : β → γ} (hx : Keeps keyPrefix now x) :
    Keeps keyPrefix now (do return f (← x)) :=
  hx.bind fun _ => .pure _

theorem report (events : List Event) : Keeps keyPrefix now (report events) :=
  fun _ h => IfEnds.modify h

theorem count (f : RevocationCount → RevocationCount) : Keeps keyPrefix now (count f) :=
  fun _ h => IfEnds.modify h

theorem get_bind {f : Session → Action β} (hf : ∀ s, Keeps keyPrefix now (f s)) :
    Keeps keyPrefix now (get >>= f) := fun s h => IfEnds.bind (IfEnds.get (hf s s h))

/-- What goes on from a date has had one. -/
theorem ofClock_bind {f : Timestamp → Action β}
    (hf : Timestamp.inRange now.second = true → Keeps keyPrefix now (f now.date)) :
    Keeps keyPrefix now (Timestamp.ofClock now >>= f) :=
  fun s h => ofClock_bind_ifEnds fun hrange => hf hrange s h

theorem callStore {operation : Store → Store.Result β}
    (h : ∀ store, KeepsRevocations keyPrefix now store →
      KeepsRevocations keyPrefix now (operation store).2) :
    Keeps keyPrefix now (callStore operation) := by
  intro s hs
  apply callStore_ifEnds
  rw [Gate.call_eq]
  cases s.gate.refusal? with
  | some e =>
    dsimp only
    rw [Gate.next_store]
    exact hs
  | none => exact h _ hs

theorem callStore_removal {operation : Store → Store.Result β}
    (h : ∀ store, Store.Change.removal.allows store (operation store).2) :
    Keeps keyPrefix now (Blacklist.callStore operation) :=
  .callStore fun store hs => hs.of_removal (h store)

end Keeps

section Calls

variable {b : Blacklist} {now : Instant} {ttlSeconds : ℕ}

theorem add_keeps (hnow : now.date < .latest) (token reason : String)
    (httl : ttlSeconds ≤ Text.maxUnsigned) :
    Keeps b.keyPrefix now (b.add now token reason ttlSeconds) := by
  unfold add
  split
  · exact .pure _
  · rename_i haccepted
    have hblank : Text.allBlank token = false := by
      unfold rejection? at haccepted
      split at haccepted
      · cases haccepted
      · exact Bool.eq_false_iff.mpr ‹_›
    refine .ofClock_bind fun hrange => ?_
    have hentry : IsRevocationOf token now (storedFor now reason ttlSeconds) :=
      ⟨hblank, now, reason, ttlSeconds, rfl, ⟨hrange, hnow⟩, Instant.le_refl now, httl⟩
    refine (Keeps.callStore fun store hs => hs.put hentry).bind fun answer => ?_
    cases answer with
    | error e => exact .pure _
    | ok _ => exact (Keeps.report _).bind fun _ => (Keeps.count _).bind fun _ => .pure _

theorem addOrLog_keeps (hnow : now.date < .latest) (token reason : String)
    (httl : ttlSeconds ≤ Text.maxUnsigned) :
    Keeps b.keyPrefix now (b.addOrLog now token reason ttlSeconds) := by
  refine (add_keeps hnow token reason httl).bind fun answer => ?_
  cases answer with
  | ok _ => exact .pure _
  | error fault => exact (Keeps.report _).bind fun _ => .pure _

theorem addEach_keeps (hnow : now.date < .latest) (reason : String)
    (httl : ttlSeconds ≤ Text.maxUnsigned) (tokens : List String) :
    Keeps b.keyPrefix now (b.addEach now reason ttlSeconds tokens) := by
  induction tokens with
  | nil => exact .pure _
  | cons token rest ih =>
    refine (add_keeps hnow token reason httl).bind fun answer => ?_
    cases answer with
    | ok _ => exact (Keeps.pure _).bind fun _ => ih.map
    | error fault => exact (Keeps.report _).bind fun _ => (Keeps.pure _).bind fun _ => ih.map

theorem isRevoked_keeps (token : String) : Keeps b.keyPrefix now (b.isRevoked now token) := by
  have hrevokes : ∀ text, Keeps b.keyPrefix now (revokes now text) := by
    intro text
    unfold revokes
    split
    · exact .pure _
    · exact .ofClock_bind fun _ => .pure _
  unfold isRevoked
  split
  · exact .pure _
  · refine (Keeps.callStore_removal (Store.get_removes now _)).bind fun answer => ?_
    match answer with
    | .error e => exact (Keeps.report _).bind fun _ => (Keeps.count _).bind fun _ => .pure _
    | .ok none => exact (Keeps.count _).bind fun _ => .pure _
    | .ok (some text) =>
      exact (hrevokes text).bind fun _ => (Keeps.count _).bind fun _ => .pure _

theorem info_keeps (token : String) : Keeps b.keyPrefix now (b.info now token) := by
  unfold info
  split
  · exact .pure _
  · refine (Keeps.callStore_removal (Store.get_removes now _)).bind fun answer => ?_
    match answer with
    | .error e => exact .pure _
    | .ok none => exact .pure _
    | .ok (some text) =>
      dsimp only
      split
      · exact .pure _
      · refine .ofClock_bind fun _ => ?_
        split
        · exact .pure _
        · refine (Keeps.callStore_removal (Store.ttl_removes now _)).bind fun answer => ?_
          split <;> exact .pure _

theorem remove_keeps (token : String) : Keeps b.keyPrefix now (b.remove now token) := by
  unfold remove
  split
  · exact .pure _
  · refine (Keeps.callStore_removal (Store.delete_removes now _)).bind fun answer => ?_
    match answer with
    | .error e => exact .pure _
    | .ok false => exact .pure _
    | .ok true => exact (Keeps.report _).bind fun _ => (Keeps.count _).bind fun _ => .pure _

theorem listFrom_keeps (fuel cursor : ℕ) (seen : List String) :
    Keeps b.keyPrefix now (b.listFrom now fuel cursor seen) := by
  induction fuel generalizing cursor seen with
  | zero => exact .pure _
  | succ fuel ih =>
    have hpage : Keeps b.keyPrefix now (b.scanPage now cursor) := by
      intro s hs
      have hscan : Keeps b.keyPrefix now
          (callStore (·.scan s.gate.position now b.keyPrefix cursor pageSize)) :=
        .callStore_removal fun store => Store.Change.removal.refl store
      exact hscan s hs
    rw [listFrom_succ]
    refine hpage.bind fun answer => ?_
    cases answer with
    | error e => exact (Keeps.report _).bind fun _ => .pure _
    | ok page =>
      unfold listPage
      dsimp only
      split
      · exact .pure _
      · exact ih _ _

theorem sweep_keeps : Keeps b.keyPrefix now (b.sweep now) := by
  intro s hs answer t hends
  obtain ⟨_, _, hsweep, made, -, hswept, -⟩ := sweep_makes (b := b) (s := s)
    (inRange_of_sweep hends)
  obtain ⟨rfl, rfl⟩ := Prod.mk.inj (Except.ok.inj (hsweep.symm.trans hends))
  refine hs.of_removal fun key e he => ?_
  by_cases hkey : key ∈ made.reduceOption
  · rw [hswept.gone key hkey] at he
    cases he
  · rw [← hswept.kept key hkey]
    exact he

/-- One call more. -/
theorem perform_keeps (hnow : now.date < .latest) {call : Call} (hfits : call.Fits) :
    Keeps b.keyPrefix now (b.perform now call) := by
  cases call with
  | add token reason ttl => exact (add_keeps hnow token reason hfits).map
  | addOrLog token reason ttl => exact (addOrLog_keeps hnow token reason hfits).map
  | addEach tokens reason ttl => exact (addEach_keeps hnow reason hfits tokens).map
  | isRevoked token => exact (isRevoked_keeps token).map
  | info token => exact (info_keeps token).map
  | remove token => exact (remove_keeps token).map
  | listAll => exact (Keeps.get_bind fun _ => listFrom_keeps _ 0 []).map
  | sweep => exact sweep_keeps.map

end Calls

/-! ## Runs -/

/-- In a run lifetimes fit into 64 bits, and nobody else touches the keys under the prefix. -/
structure Ordinary (keyPrefix : String) (hs : List Happening) : Prop where
  fits : ∀ t, .turn t ∈ hs → t.call.Fits
  apart : ∀ change, .outside change ∈ hs → ∀ (g : Gate) (token : String),
    (change g).store.entries.get? (keyPrefix ++ token) =
      g.store.entries.get? (keyPrefix ++ token)

theorem Ordinary.tail {keyPrefix : String} {h : Happening} {hs : List Happening}
    (hordinary : Ordinary keyPrefix (h :: hs)) : Ordinary keyPrefix hs where
  fits t ht := hordinary.fits t (List.mem_cons_of_mem h ht)
  apart change hchange := hordinary.apart change (List.mem_cons_of_mem h hchange)

section Runs

variable {keyPrefix : String} {last now : Instant} {g g' : Gate}

/-- A run leaves revocations under the prefix, if no call of it halts. -/
theorem gateAfter_keeps {hs : List Happening} (hordinary : Ordinary keyPrefix hs)
    (hsorted : (last :: (times hs ++ [now])).Pairwise (· ≤ ·)) (hnow : now.date < .latest)
    (hkeeps : KeepsRevocations keyPrefix last g.store)
    (hends : gateAfter keyPrefix g hs = .ok g') :
    KeepsRevocations keyPrefix now g'.store := by
  induction hs generalizing g last with
  | nil =>
    obtain rfl := Except.ok.inj hends
    exact hkeeps.later ((List.pairwise_cons.mp hsorted).1 now List.mem_cons_self)
  | cons happening rest ih =>
    cases happening with
    | outside change =>
      refine ih hordinary.tail hsorted (fun token e he => ?_) hends
      rw [hordinary.apart change List.mem_cons_self] at he
      exact hkeeps token e he
    | turn t =>
      obtain ⟨hfirst, hrest⟩ := List.pairwise_cons.mp hsorted
      have hbefore : t.now.date < .latest := by
        refine Instant.date_lt_latest_of_le ?_ hnow
        exact (List.pairwise_cons.mp hrest).1 now (List.mem_append_right _ List.mem_cons_self)
      have hturn := hkeeps.later (hfirst t.now List.mem_cons_self)
      rw [gateAfter] at hends
      cases hperform : perform ⟨keyPrefix, t.failureMode⟩ t.now t.call ⟨g, t.counts, []⟩ with
      | error halt =>
        rw [hperform] at hends
        cases hends
      | ok p =>
        rw [hperform] at hends
        have hafter := perform_keeps (b := ⟨keyPrefix, t.failureMode⟩) hbefore
          (hordinary.fits t List.mem_cons_self) ⟨g, t.counts, []⟩ hturn p.1 p.2 hperform
        exact ih hordinary.tail hrest hafter hends

/-- Where there are only revocations, a token is revoked if and only if its key is live. -/
theorem isRevoked_of_keeps {b : Blacklist} {s : Session} (hnow : now.date < .latest)
    (hkeeps : KeepsRevocations b.keyPrefix now s.gate.store) (hopen : s.gate.IsOpen)
    (token : String) : (b.isRevoked now token s).map Prod.fst =
      .ok (s.gate.store.visible? now (b.key token)).isSome := by
  rw [isRevoked_answer, hopen.refusal?]
  cases hvisible : s.gate.store.visible? now (b.key token) with
  | none =>
    split
    · rfl
    · rfl
  | some e =>
    obtain ⟨hstored, hlive⟩ := Store.visible?_eq_some_iff.mp hvisible
    obtain ⟨hblank, since, reason, ttlSeconds, rfl, hsince, hle, httl⟩ := hkeeps token e hstored
    -- the key is live, so the entry has not lapsed
    have hdated := hsince.later hle hnow
    have htime := (BlacklistEntry.isLive_deadline_iff hsince.inRange hdated _).mp hlive
    rw [if_neg (by rw [hblank]; exact Bool.false_ne_true)]
    unfold lookupAnswer storedFor
    simp only [BlacklistEntry.read?_render_of hsince httl, hdated.ofInstant?,
      isExpiredAt_eq_false hsince hdated htime, Bool.not_false, Option.isSome_some]

end Runs

end Bulwark.Blacklist
