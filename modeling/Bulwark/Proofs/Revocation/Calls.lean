import Bulwark.Proofs.Revocation.Mutation
import Bulwark.Proofs.Revocation.Page
import Bulwark.Proofs.Revocation.Sweep
import Bulwark.Proofs.Store.Scan

/-!
# What calls do to the revocations

A call of a blacklist takes a store that reflects mutations to a store that reflects these and those
that the call has made.  Only revoking and lifting make mutations, and only if their answer says so.
Lookups, listings and sweeps make none: a sweep finds nothing stale, since whatever is visible can
be read and has not lapsed.
-/

namespace Bulwark.Blacklist

variable {b : Blacklist} {ms : List Mutation} {now : Instant} {s : Session}

/-- The session works on a store that reflects mutations. -/
def Session.Reflects (b : Blacklist) (ms : List Mutation) (now : Instant) (s : Session) : Prop :=
  Blacklist.Reflects b.keyPrefix ms now s.gate.store

theorem Session.Reflects.of_store_eq {t : Session} (h : s.Reflects b ms now)
    (hstore : t.gate.store = s.gate.store) : t.Reflects b ms now := by
  unfold Session.Reflects
  rw [hstore]
  exact h

/-- Reading changes nothing that is reflected. -/
theorem Session.Reflects.of_get {t : Session} {key : String} (h : s.Reflects b ms now)
    (hstore : t.gate.store = (s.gate.store.get now key).2) : t.Reflects b ms now := by
  refine Blacklist.Reflects.congr h fun token => ?_
  rw [hstore]
  exact Store.visible?_get (Instant.le_refl now)

theorem Session.Reflects.of_ttl {t : Session} {key : String} (h : s.Reflects b ms now)
    (hstore : t.gate.store = (s.gate.store.ttl now key).2) : t.Reflects b ms now := by
  refine Blacklist.Reflects.congr h fun token => ?_
  rw [hstore]
  exact Store.visible?_ttl (Instant.le_refl now)

/-! ## Revoking and lifting -/

/-- A revocation is reflected if its answer says that it was made. -/
theorem add_ends (h : s.Reflects b ms now) (hnow : now.IsDated) (token reason : String)
    {ttlSeconds : Nat} (httl : ttlSeconds ≤ Text.maxUnsigned) :
    Ends (b.add now token reason ttlSeconds) s fun answer t =>
      match answer with
      | .ok () => t.Reflects b (ms ++ [.revoke token reason now ttlSeconds]) now
      | .error _ => t.Reflects b ms now := by
  unfold add
  split
  · exact Ends.pure h
  · refine Ends.bind (Ends.ofClock hnow (Ends.bind (Ends.callStore ?_ ?_)))
    · intro e t _ hstore
      exact Ends.pure (h.of_store_eq hstore)
    · intro t _ hstore
      refine Ends.bind (Ends.report (Ends.bind (Ends.count (Ends.pure ?_))))
      show Blacklist.Reflects _ _ _ t.gate.store
      rw [hstore]
      exact Blacklist.Reflects.set h hnow httl token reason

theorem addOrLog_ends (h : s.Reflects b ms now) (hnow : now.IsDated) (token reason : String)
    {ttlSeconds : Nat} (httl : ttlSeconds ≤ Text.maxUnsigned) :
    Ends (b.addOrLog now token reason ttlSeconds) s fun answer t =>
      t.Reflects b (ms ++ if answer then [.revoke token reason now ttlSeconds] else []) now := by
  unfold addOrLog
  refine Ends.bind ((add_ends h hnow token reason httl).mono ?_)
  intro answer t ht
  cases answer with
  | ok _ => exact Ends.pure ht
  | error fault =>
    refine Ends.bind (Ends.report (Ends.pure ?_))
    rw [if_neg Bool.false_ne_true, List.append_nil]
    exact ht

/-- Revokes tokens one after the other, and gives those for which it worked. -/
def addEachTokens (b : Blacklist) (now : Instant) (reason : String) (ttlSeconds : Nat) :
    List String → Action (List String)
  | [] => pure []
  | token :: rest => do
    match ← b.add now token reason ttlSeconds with
    | .ok () => return token :: (← addEachTokens b now reason ttlSeconds rest)
    | .error fault =>
      report [.log (.of .debug "Skipping token in batch"
        [("token", maskToken token), ("error", fault.message)])]
      addEachTokens b now reason ttlSeconds rest

/-- A batch gives the number of the tokens for which it worked. -/
theorem addEach_eq (reason : String) (ttlSeconds : Nat) (tokens : List String) :
    b.addEach now reason ttlSeconds tokens =
      (do return (← b.addEachTokens now reason ttlSeconds tokens).length) := by
  induction tokens with
  | nil => rfl
  | cons token rest ih =>
    rw [addEach, addEachTokens, ih]
    simp only [bind_assoc, pure_bind]
    congr 1
    funext answer
    cases answer with
    | ok _ => simp only [bind_assoc, pure_bind, List.length_cons, Nat.add_comm]
    | error fault => simp only [bind_assoc, Nat.zero_add]

theorem addEachTokens_ends (hnow : now.IsDated) (reason : String) {ttlSeconds : Nat}
    (httl : ttlSeconds ≤ Text.maxUnsigned) (tokens : List String) :
    ∀ {ms : List Mutation} {s : Session}, s.Reflects b ms now →
      Ends (b.addEachTokens now reason ttlSeconds tokens) s fun added t =>
        t.Reflects b (ms ++ added.map (.revoke · reason now ttlSeconds)) now := by
  induction tokens with
  | nil =>
    intro ms s h
    refine Ends.pure ?_
    rw [List.map_nil, List.append_nil]
    exact h
  | cons token rest ih =>
    intro ms s h
    rw [addEachTokens]
    refine Ends.bind ((add_ends h hnow token reason httl).mono ?_)
    intro answer t ht
    cases answer with
    | ok _ =>
      -- the rest of the batch starts from the mutations up to this token
      refine Ends.map ((ih ht).mono ?_)
      intro added u hu
      rw [List.append_assoc] at hu
      exact hu
    | error fault => exact Ends.bind (Ends.report (ih ht))

/-- A lifting is reflected if its answer says that it was made. -/
theorem remove_ends (h : s.Reflects b ms now) (token : String) :
    Ends (b.remove now token) s fun answer t =>
      match answer with
      | .ok true => t.Reflects b (ms ++ [.lift token]) now
      | _ => t.Reflects b ms now := by
  unfold remove
  split
  · exact Ends.pure h
  · refine Ends.bind (Ends.callStore ?_ ?_)
    · intro e t _ hstore
      exact Ends.pure (h.of_store_eq hstore)
    · intro t _ hstore
      -- a lifting is reported exactly if there was something to see under the key
      rw [Store.delete_answer]
      cases hv : s.gate.store.visible? now (b.key token) with
      | none =>
        refine Ends.pure ?_
        show Blacklist.Reflects _ _ _ t.gate.store
        rw [hstore]
        exact Blacklist.Reflects.delete_of_not_visible h hv
      | some e =>
        refine Ends.bind (Ends.report (Ends.bind (Ends.count (Ends.pure ?_))))
        show Blacklist.Reflects _ _ _ t.gate.store
        rw [hstore]
        exact Blacklist.Reflects.delete h token

/-! ## Lookups -/

/-- A lookup answers whether the token is revoked by the mutations, or by the failure mode if the
store cannot be read. -/
theorem isRevoked_ends (h : s.Reflects b ms now) (hnow : now.IsDated) (token : String) :
    Ends (b.isRevoked now token) s fun answer t => t.Reflects b ms now ∧
      (Text.allBlank token = false → answer =
        match (s.gate.call (·.get now (b.key token))).1 with
        | .error _ => b.failureMode.revokedOnError
        | .ok _ => isRevokedBy ms token now) := by
  unfold isRevoked
  split
  · rename_i hblank
    exact Ends.pure ⟨h, fun hnot => absurd hblank (by rw [hnot]; decide)⟩
  · refine Ends.bind (Ends.callStore ?_ ?_)
    · intro e t hrefusal hstore
      refine Ends.bind (Ends.report (Ends.bind (Ends.count (Ends.pure ⟨h.of_store_eq hstore, ?_⟩))))
      intro _
      rw [Gate.call_of_refusal hrefusal]
    · intro t hrefusal hstore
      rw [Gate.call_of_pass hrefusal, Store.get_answer]
      -- what is visible can be read and has not lapsed, so the entry adds nothing to the deadline
      rcases Blacklist.Reflects.visible?_cases h hnow token with
        ⟨hv, hrevoked⟩ | ⟨entry, deadline, hv, hread, hexpired, hrevoked⟩
      · rw [show s.gate.store.visible? now (b.key token) = none from hv]
        exact Ends.bind (Ends.count (Ends.pure ⟨h.of_get hstore, fun _ => hrevoked.symm⟩))
      · rw [show s.gate.store.visible? now (b.key token) = some _ from hv]
        refine Ends.bind (Ends.mono (Q := fun answer u => answer = true ∧ u = t) ?_ ?_)
        · unfold revokes
          rw [hread]
          refine Ends.bind (Ends.ofClock hnow (Ends.pure ⟨?_, rfl⟩))
          rw [hexpired]
          rfl
        · rintro answer u ⟨rfl, rfl⟩
          exact Ends.bind (Ends.count (Ends.pure ⟨h.of_get hstore, fun _ => hrevoked.symm⟩))

theorem info_ends (h : s.Reflects b ms now) (hnow : now.IsDated) (token : String) :
    Ends (b.info now token) s fun _ t => t.Reflects b ms now := by
  unfold info
  split
  · exact Ends.pure h
  · refine Ends.bind (Ends.callStore ?_ ?_)
    · intro e t _ hstore
      exact Ends.pure (h.of_store_eq hstore)
    · intro t _ hstore
      have ht := h.of_get hstore
      generalize (s.gate.store.get now (b.key token)).1 = answer
      match answer with
      | .error e => exact Ends.pure ht
      | .ok none => exact Ends.pure ht
      | .ok (some text) =>
        simp only []
        split
        · exact Ends.pure ht
        · refine Ends.bind (Ends.ofClock hnow ?_)
          split
          · exact Ends.pure ht
          · refine Ends.bind (Ends.callStore ?_ ?_)
            · intro e u _ hstore'
              exact Ends.pure (ht.of_store_eq hstore')
            · intro u _ hstore'
              have hu := ht.of_ttl hstore'
              split
              · exact Ends.pure hu
              · exact Ends.pure hu
              · exact Ends.pure hu

/-! ## Walks -/

/-- The keys on a page start with the prefix; the store stays as it is. -/
theorem scanPage_ends (h : s.Reflects b ms now) (cursor : Nat) :
    Ends (b.scanPage now cursor) s fun answer t => t.Reflects b ms now ∧
      ∀ next keys, answer = .ok (next, keys) →
        ∀ k ∈ keys, Text.startsWith b.keyPrefix k = true := by
  show Ends (callStore (·.scan s.gate.position now b.keyPrefix cursor pageSize)) s _
  refine Ends.callStore ?_ ?_
  · intro e t _ hstore
    exact ⟨h.of_store_eq hstore, nofun⟩
  · intro t _ hstore
    exact ⟨h.of_store_eq hstore, fun next keys heq k hk => (Store.matches_of_mem_scan heq hk).1⟩

theorem listFrom_ends (fuel : Nat) :
    ∀ {s : Session} (cursor : Nat) (seen : List String), s.Reflects b ms now →
      Ends (b.listFrom now fuel cursor seen) s fun _ t => t.Reflects b ms now := by
  induction fuel with
  | zero =>
    intro s cursor seen h
    exact Ends.pure h
  | succ fuel ih =>
    intro s cursor seen h
    rw [listFrom_succ]
    refine Ends.bind ((scanPage_ends h cursor).mono ?_)
    rintro answer t ⟨ht, -⟩
    match answer with
    | .error e => exact Ends.bind (Ends.report (Ends.pure ht))
    | .ok (next, keys) =>
      unfold listPage
      simp only []
      split
      · exact Ends.pure ht
      · exact ih next _ ht

theorem listAll_ends (h : s.Reflects b ms now) :
    Ends (b.listAll now) s fun _ t => t.Reflects b ms now :=
  Ends.bind (Ends.get (listFrom_ends _ 0 [] h))

/-- Nothing that is reflected is stale. -/
theorem not_staleUnder (h : s.Reflects b ms now) (hnow : now.IsDated) (key : String) :
    ¬ IsStaleUnder b.keyPrefix now s.gate.store key := by
  rintro ⟨hstart, e, hvisible, hstale⟩
  obtain ⟨token, rfl⟩ := (Text.startsWith_iff _ _).mp hstart
  rcases Blacklist.Reflects.visible?_cases h hnow token with
    ⟨hv, _⟩ | ⟨entry, deadline, hv, hread, hexpired, _⟩
  · cases hvisible.symm.trans hv
  · obtain rfl := Option.some.inj (hvisible.symm.trans hv)
    simp only [staleEntry, hread, hexpired, Bool.false_and, Bool.false_eq_true] at hstale

/-- A sweep leaves what is reflected. -/
theorem sweep_ends (h : s.Reflects b ms now) (hnow : now.IsDated) :
    Ends (b.sweep now) s fun _ t => t.Reflects b ms now := by
  refine (sweep_of_none_stale hnow.inRange (not_staleUnder h hnow)).mono fun _ t ht => ?_
  refine Blacklist.Reflects.congr h fun token => ?_
  unfold Store.visible?
  rw [ht.1]

end Bulwark.Blacklist
