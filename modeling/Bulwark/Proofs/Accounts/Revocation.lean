import Bulwark.Proofs.Accounts.Occurrence
import Bulwark.Proofs.Halt
import Bulwark.Proofs.Revocation.Calls
import Bulwark.Proofs.Revocation.Sweep
import Bulwark.Proofs.Store.Gone

/-!
# The accounts of a blacklist

A revocation is counted if its answer says that it was made, also within a batch; a key is counted
if it is gone after a lifting or a sweep, also if the sweep has failed later on; and a lookup of a
token that is not blank is counted once, by whether the store has answered it.  `occurrences` says
which of these a call brings, by its answer and by the stores before and after it.
-/

namespace Bulwark.Blacklist

variable {s t u : Session} {now : Instant}

/-- What a call brings that is counted. -/
def occurrences (b : Blacklist) (now : Instant) (s : Session) (call : Call) (reply : Reply)
    (t : Session) : List Occurrence :=
  match call, reply with
  | .add _ _ _, .added (.ok ()) => [.added]
  | .addOrLog _ _ _, .revoked true => [.added]
  | .addEach tokens reason ttlSeconds, _ =>
    match b.addEachTokens now reason ttlSeconds tokens s with
    | .ok (added, _) => added.map fun _ => .added
    | .error _ => []
  | .isRevoked token, .revoked revoked =>
    if Text.allBlank token then []
    else [.lookedUp (s.gate.call (·.get now (b.key token))).1.isOk revoked]
  | .remove _, _ => (Store.gone now s.gate.store t.gate.store).map fun _ => .removed
  | .sweep, _ => (Store.gone now s.gate.store t.gate.store).map fun _ => .removed
  | _, _ => []

/-- The counts of a blacklist have moved by the occurrences, and by nothing else. -/
abbrev Counts (s : Session) (os : List Occurrence) (t : Session) : Prop :=
  FollowsIn (fun c revocation => { c with revocation }) s.counts os t.counts

theorem counts_added (s : Session) (gate : Gate) (events : List Event) :
    Counts s [.added] ⟨gate, s.counts.recordAdded, events⟩ := by
  intro c col
  cases col <;> rfl

theorem counts_removed (s : Session) (gate : Gate) (events : List Event) :
    Counts s [.removed] ⟨gate, s.counts.recordRemoved, events⟩ := by
  intro c col
  cases col <;> rfl

theorem counts_lookup (s : Session) (revoked : Bool) (gate : Gate) (events : List Event) :
    Counts s [.lookedUp true revoked] ⟨gate, s.counts.recordLookup revoked, events⟩ := by
  intro c col
  cases col with
  | hits => cases revoked <;> rfl
  | _ => rfl

theorem counts_lookupError (s : Session) (revoked : Bool) (gate : Gate) (events : List Event) :
    Counts s [.lookedUp false revoked] ⟨gate, s.counts.recordLookupError, events⟩ := by
  intro c col
  cases col with
  | hits => cases revoked <;> rfl
  | _ => rfl

/-! ## Revoking -/

theorem add_counts (b : Blacklist) (now : Instant) (token reason : String) (ttlSeconds : ℕ) :
    IfEnds (b.add now token reason ttlSeconds) s fun answer t =>
      Counts s (match answer with
        | .ok () => [.added]
        | .error _ => []) t := by
  unfold add
  split
  · exact IfEnds.pure (.nothing rfl)
  · refine IfEnds.bind (IfEnds.ofClock fun date => IfEnds.bind (callStore_ifEnds ?_))
    split
    · exact IfEnds.pure (.nothing rfl)
    · exact IfEnds.modify_bind (IfEnds.modify_bind (IfEnds.pure (counts_added s _ _)))

theorem addOrLog_counts (b : Blacklist) (now : Instant) (token reason : String) (ttlSeconds : ℕ) :
    IfEnds (b.addOrLog now token reason ttlSeconds) s fun answer t =>
      Counts s (if answer then [.added] else []) t := by
  unfold addOrLog
  refine IfEnds.bind ((add_counts b now token reason ttlSeconds).mono ?_)
  intro answer t ht
  cases answer with
  | ok _ => exact IfEnds.pure ht
  | error fault => exact IfEnds.modify_bind (IfEnds.pure ht)

theorem addEachTokens_counts (b : Blacklist) (now : Instant) (reason : String) (ttlSeconds : ℕ)
    (tokens : List String) : ∀ {s : Session},
      IfEnds (b.addEachTokens now reason ttlSeconds tokens) s fun added t =>
        Counts s (added.map fun _ => .added) t := by
  induction tokens with
  | nil => exact IfEnds.pure (.nothing rfl)
  | cons token rest ih =>
    intro s
    rw [addEachTokens]
    refine IfEnds.bind ((add_counts b now token reason ttlSeconds).mono ?_)
    intro answer t ht
    cases answer with
    | ok _ => exact IfEnds.map (ih.mono fun added u hu => ht.trans hu)
    | error fault => exact IfEnds.modify_bind (ih.mono fun added u hu => ht.trans hu)

/-! ## Looking up -/

theorem isRevoked_counts (b : Blacklist) (now : Instant) (token : String) :
    IfEnds (b.isRevoked now token) s fun revoked t =>
      Counts s (if Text.allBlank token then []
        else [.lookedUp (s.gate.call (·.get now (b.key token))).1.isOk revoked]) t := by
  unfold isRevoked
  split
  · exact IfEnds.pure (.nothing rfl)
  · refine IfEnds.bind (callStore_ifEnds ?_)
    cases (s.gate.call (·.get now (b.key token))).1 with
    | error e =>
      exact IfEnds.modify_bind (IfEnds.modify_bind (IfEnds.pure
        (counts_lookupError s _ _ _)))
    | ok text =>
      cases text with
      | none => exact IfEnds.modify_bind (IfEnds.pure (counts_lookup s _ _ _))
      | some text =>
        -- reading the entry changes nothing
        have hrevokes : ∀ s : Session, IfEnds (revokes now text) s fun _ t => t = s := by
          intro s
          unfold revokes
          split
          · exact IfEnds.pure rfl
          · exact IfEnds.map (IfEnds.ofClock fun _ => rfl)
        refine IfEnds.bind ((hrevokes _).mono ?_)
        rintro revoked _ rfl
        exact IfEnds.modify_bind (IfEnds.pure (counts_lookup s _ _ _))

/-! ## Deleting -/

/-- Some keys have been deleted, and as many are counted. -/
def Lifted (now : Instant) (s t : Session) : Prop :=
  ∃ keys, Store.Removes now s.gate.store keys t.gate.store ∧
    Counts s (keys.map fun _ => .removed) t

namespace Lifted

theorem of_sameView (hstore : Store.SameView now s.gate.store t.gate.store)
    (hcounts : t.counts = s.counts) : Lifted now s t :=
  ⟨[], .of_sameView hstore, .nothing hcounts⟩

theorem refl (now : Instant) (s : Session) : Lifted now s s := .of_sameView (.refl now _) rfl

/-- What is counted is what is gone. -/
theorem counts_gone (h : Lifted now s t) :
    Counts s ((Store.gone now s.gate.store t.gate.store).map fun _ => .removed) t := by
  obtain ⟨keys, hremoves, hcounts⟩ := h
  rw [List.map_const', hremoves.gone_perm.length_eq, ← List.map_const']
  exact hcounts

end Lifted

/-- A key that is deleted has been there, and it is one more to be counted. -/
theorem delete_lifted (now : Instant) (key : String) :
    IfEnds (callStore (·.delete now key)) s fun answer t => match answer with
      | .ok true => ∀ events, Lifted now s ⟨t.gate, t.counts.recordRemoved, events⟩
      | _ => Lifted now s t := by
  refine callStore_ifEnds ?_
  cases hrefusal : s.gate.refusal? with
  | some e =>
    rw [Gate.call_of_refusal hrefusal]
    refine .of_sameView ?_ rfl
    show Store.SameView now s.gate.store s.gate.next.store
    rw [Gate.next_store]
    exact .refl now _
  | none =>
    rw [Gate.call_of_pass hrefusal]
    dsimp only
    rw [Store.delete_answer]
    cases hvisible : s.gate.store.visible? now key with
    | none => exact ⟨[], .delete_of_not_visible hvisible, .nothing rfl⟩
    | some e =>
      intro events
      exact ⟨[key], .delete (by rw [hvisible]; rfl), counts_removed s _ _⟩

theorem remove_lifted (b : Blacklist) (now : Instant) (token : String) :
    IfEnds (b.remove now token) s fun _ t => Lifted now s t := by
  unfold remove
  split
  · exact IfEnds.pure (.refl now s)
  · refine IfEnds.bind ((delete_lifted now (b.key token)).mono ?_)
    intro answer t ht
    match answer with
    | .error e => exact IfEnds.pure ht
    | .ok false => exact IfEnds.pure ht
    | .ok true =>
      exact IfEnds.modify_bind (IfEnds.modify_bind (IfEnds.pure (ht _)))

/-- Keys that have been counted are counted one by one. -/
theorem counts_removed_all {keys : List String} (h : t.counts =
    { s.counts with removed := s.counts.removed + UInt64.ofNat keys.length }) :
    Counts s (keys.map fun _ => .removed) t := by
  induction keys generalizing s with
  | nil =>
    refine .nothing (h.trans ?_)
    rw [List.length_nil]
    simp
  | cons key rest ih =>
    refine (counts_removed s s.gate s.events).trans (ih (h.trans ?_))
    unfold RevocationCount.recordRemoved
    rw [List.length_cons, Nat.add_comm, UInt64.ofNat_add, ← UInt64.add_assoc]
    rfl

/-- A sweep counts what it has deleted, also if it has failed later on. -/
theorem sweep_lifted (b : Blacklist) (now : Instant) :
    IfEnds (b.sweep now) s fun _ t => Lifted now s t := by
  intro answer t hends
  obtain ⟨_, _, hsweep, made, hmade, hswept, -⟩ :=
    sweep_makes (b := b) (s := s) (inRange_of_sweep hends)
  obtain ⟨rfl, rfl⟩ := Prod.mk.inj (Except.ok.inj (hsweep.symm.trans hends))
  refine ⟨made.reduceOption, ⟨?_, ?_, ?_⟩, counts_removed_all hswept.counts⟩
  · exact (nodup_sweepCalls s.gate).sublist (hmade.sublist.filterMap id)
  · intro key hkey
    obtain ⟨-, e, he, -⟩ := staleUnder_of_mem hmade hkey
    rw [he]
    rfl
  · intro key
    split
    · exact Store.visible?_of_absent (hswept.gone key ‹_›)
    · unfold Store.visible?
      rw [hswept.kept key ‹_›]

/-! ## Reading -/

theorem info_counts (b : Blacklist) (now : Instant) (token : String) :
    IfEnds (b.info now token) s fun _ t => t.counts = s.counts := by
  unfold info
  split
  · exact IfEnds.pure rfl
  · refine IfEnds.bind (callStore_ifEnds ?_)
    match (s.gate.call (·.get now (b.key token))).1 with
    | .error e => exact IfEnds.pure rfl
    | .ok none => exact IfEnds.pure rfl
    | .ok (some text) =>
      dsimp only
      split
      · exact IfEnds.pure rfl
      · refine IfEnds.bind (IfEnds.ofClock fun date => ?_)
        split
        · exact IfEnds.pure rfl
        · refine IfEnds.bind (callStore_ifEnds ?_)
          split <;> exact IfEnds.pure rfl

theorem listFrom_counts (b : Blacklist) (now : Instant) (fuel : ℕ) :
    ∀ {s : Session} (cursor : ℕ) (seen : List String),
      IfEnds (b.listFrom now fuel cursor seen) s fun _ t => t.counts = s.counts := by
  induction fuel with
  | zero => exact fun _ _ => IfEnds.pure rfl
  | succ fuel ih =>
    intro s cursor seen
    rw [listFrom_succ]
    have hpage : IfEnds (b.scanPage now cursor) s fun _ t => t.counts = s.counts := by
      rintro _ _ ⟨⟩
      rfl
    refine IfEnds.bind (hpage.mono ?_)
    intro answer t ht
    match answer with
    | .error e => exact IfEnds.modify_bind (IfEnds.pure ht)
    | .ok (next, keys) =>
      unfold listPage
      dsimp only
      split
      · exact IfEnds.pure ht
      · exact (ih next _).mono fun _ u hu => hu.trans ht

/-! ## Calls -/

/-- A call counts what it brings, and nothing else. -/
theorem perform_counts (b : Blacklist) (now : Instant) (call : Call) :
    IfEnds (b.perform now call) s fun reply t => Counts s (b.occurrences now s call reply t) t := by
  cases call with
  | add token reason ttlSeconds =>
    refine IfEnds.map ((add_counts b now token reason ttlSeconds).mono fun answer t ht => ?_)
    cases answer <;> exact ht
  | addOrLog token reason ttlSeconds =>
    refine IfEnds.map ((addOrLog_counts b now token reason ttlSeconds).mono fun answer t ht => ?_)
    cases answer <;> exact ht
  | addEach tokens reason ttlSeconds =>
    refine IfEnds.map ?_
    rw [addEach_eq]
    refine IfEnds.map fun added t hends => ?_
    show Counts s (match b.addEachTokens now reason ttlSeconds tokens s with
      | .ok (added, _) => added.map fun _ => .added
      | .error _ => []) t
    rw [hends]
    exact addEachTokens_counts b now reason ttlSeconds tokens added t hends
  | isRevoked token => exact IfEnds.map (isRevoked_counts b now token)
  | info token => exact IfEnds.map ((info_counts b now token).mono fun _ _ ht => .nothing ht)
  | remove token => exact IfEnds.map ((remove_lifted b now token).mono fun _ _ ht => ht.counts_gone)
  | listAll =>
    refine IfEnds.map ?_
    exact IfEnds.bind (IfEnds.get ((listFrom_counts b now _ 0 []).mono fun _ _ ht => .nothing ht))
  | sweep => exact IfEnds.map ((sweep_lifted b now).mono fun _ _ ht => ht.counts_gone)

end Bulwark.Blacklist
