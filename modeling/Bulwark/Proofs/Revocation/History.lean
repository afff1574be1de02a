import Bulwark.Proofs.Revocation.Calls
import Bulwark.Proofs.Revocation.Run

/-!
# Revocation over whole runs

In a run in which nobody else touches the keys under the prefix, every lookup is exact: it answers
by the last mutation of its token, or by the failure mode if the store cannot be read
(`isRevoked_iff_lastMutation`).  The step is one call (`perform_ends`); the invariant that carries
the run is that the store reflects the mutations so far.
-/

namespace Bulwark.Blacklist

/-! ## Mutations of a run -/

/-- What a call has done to the revocations, by its answer.  The answer to a batch is a number only;
it has revoked the tokens for which it worked. -/
def mutationsOf (b : Blacklist) (now : Instant) (before : Session) : Call → Reply → List Mutation
  | .add token reason ttlSeconds, .added (.ok ()) => [.revoke token reason now ttlSeconds]
  | .addOrLog token reason ttlSeconds, .revoked true => [.revoke token reason now ttlSeconds]
  | .addEach tokens reason ttlSeconds, _ =>
    match b.addEachTokens now reason ttlSeconds tokens before with
    | .ok (added, _) => added.map (.revoke · reason now ttlSeconds)
    | .error _ => []
  | .remove token, .removed (.ok true) => [.lift token]
  | _, _ => []

/-- What a call in a run has done to the revocations. -/
def Record.mutations (keyPrefix : String) (r : Record) : List Mutation :=
  mutationsOf ⟨keyPrefix, r.turn.failureMode⟩ r.turn.now r.before r.turn.call r.reply

/-- A lifetime in a call fits into 64 bits. -/
def Call.Fits : Call → Prop
  | .add _ _ ttlSeconds => ttlSeconds ≤ Text.maxUnsigned
  | .addOrLog _ _ ttlSeconds => ttlSeconds ≤ Text.maxUnsigned
  | .addEach _ _ ttlSeconds => ttlSeconds ≤ Text.maxUnsigned
  | _ => True

/-- The clock never goes back and stays in the calendar, before its end; lifetimes fit; nobody else
touches the keys under the prefix. -/
structure Proper (keyPrefix : String) (hs : List Happening) : Prop where
  sorted : (times hs).Pairwise (· ≤ ·)
  dated : ∀ now ∈ times hs, now.IsDated
  fits : ∀ t, .turn t ∈ hs → t.call.Fits
  apart : ∀ change, .outside change ∈ hs → ∀ g token,
    (change g).store.entries.get? (keyPrefix ++ token) =
      g.store.entries.get? (keyPrefix ++ token)

variable {keyPrefix : String} {b : Blacklist} {ms : List Mutation} {now : Instant} {s : Session}

/-! ## One call -/

theorem Session.Reflects.append_nil (h : s.Reflects b ms now) : s.Reflects b (ms ++ []) now := by
  rw [List.append_nil]
  exact h

/-- A call ends, and its mutations are reflected; a lookup answers by those before it, or by the
failure mode if the store cannot be read. -/
theorem perform_ends (h : s.Reflects b ms now) (hnow : now.IsDated) {call : Call}
    (hfits : call.Fits) :
    Ends (b.perform now call) s fun reply t =>
      t.Reflects b (ms ++ mutationsOf b now s call reply) now ∧
      ∀ token, call = .isRevoked token → Text.allBlank token = false → reply = .revoked
        (match (s.gate.call (·.get now (b.key token))).1 with
        | .error _ => b.failureMode.revokedOnError
        | .ok _ => isRevokedBy ms token now) := by
  cases call with
  | add token reason ttlSeconds =>
    refine Ends.map ((add_ends h hnow token reason hfits).mono fun answer t ht => ⟨?_, nofun⟩)
    cases answer with
    | ok _ => exact ht
    | error _ => exact ht.append_nil
  | addOrLog token reason ttlSeconds =>
    refine Ends.map ((addOrLog_ends h hnow token reason hfits).mono fun answer t ht => ⟨?_, nofun⟩)
    cases answer <;> exact ht
  | addEach tokens reason ttlSeconds =>
    obtain ⟨added, t, heq, ht⟩ := addEachTokens_ends hnow reason hfits tokens h
    refine Ends.map ?_
    rw [addEach_eq]
    refine Ends.map ⟨added, t, heq, ?_, nofun⟩
    show Session.Reflects b (ms ++ match b.addEachTokens now reason ttlSeconds tokens s with
      | .ok (added, _) => added.map (.revoke · reason now ttlSeconds)
      | .error _ => []) now t
    rw [heq]
    exact ht
  | isRevoked token =>
    refine Ends.map ((isRevoked_ends h hnow token).mono ?_)
    rintro answer t ⟨ht, hanswer⟩
    refine ⟨?_, ?_⟩
    · cases answer <;> exact ht.append_nil
    · intro token' heq hblank
      obtain rfl := Call.isRevoked.inj heq
      exact congrArg Reply.revoked (hanswer hblank)
  | info token =>
    refine Ends.map ((info_ends h hnow token).mono fun answer t ht => ⟨?_, nofun⟩)
    exact ht.append_nil
  | remove token =>
    refine Ends.map ((remove_ends h token).mono fun answer t ht => ⟨?_, nofun⟩)
    match answer with
    | .ok true => exact ht
    | .ok false => exact ht.append_nil
    | .error _ => exact ht.append_nil
  | listAll =>
    refine Ends.map ((listAll_ends h).mono fun answer t ht => ⟨?_, nofun⟩)
    exact ht.append_nil
  | sweep =>
    refine Ends.map ((sweep_ends h hnow).mono fun answer t ht => ⟨?_, nofun⟩)
    exact ht.append_nil

/-! ## Whole runs -/

theorem Proper.tail {h : Happening} {hs : List Happening} (hproper : Proper keyPrefix (h :: hs)) :
    Proper keyPrefix hs where
  sorted := by
    have hsorted := hproper.sorted
    cases h with
    | turn t => exact (List.pairwise_cons.mp hsorted).2
    | outside change => exact hsorted
  dated now hnow := hproper.dated now <| by
    cases h with
    | turn t => exact List.mem_cons_of_mem t.now hnow
    | outside change => exact hnow
  fits t ht := hproper.fits t (List.mem_cons_of_mem h ht)
  apart change hchange := hproper.apart change (List.mem_cons_of_mem h hchange)

/-- A run that starts in a store that reflects mutations does not halt, and every lookup in it
answers by these and by those of the calls before it. -/
theorem history_ok (hs : List Happening) :
    ∀ {ms : List Mutation} {g : Gate}, Proper keyPrefix hs →
      (∀ now ∈ times hs, Reflects keyPrefix ms now g.store) →
      ∃ records, history keyPrefix g hs = (records, none) ∧
        ∀ past r future, records = past ++ r :: future → ∀ token, r.turn.call = .isRevoked token →
          Text.allBlank token = false → r.reply = .revoked
            (match (r.before.gate.call (·.get r.turn.now (keyPrefix ++ token))).1 with
            | .error _ => r.turn.failureMode.revokedOnError
            | .ok _ =>
              isRevokedBy (ms ++ past.flatMap (·.mutations keyPrefix)) token r.turn.now) := by
  induction hs with
  | nil =>
    intro ms g _ _
    exact ⟨[], rfl, fun past r future heq => absurd heq (by simp)⟩
  | cons happening rest ih =>
    intro ms g hproper hreflects
    cases happening with
    | outside change =>
      -- what others do keeps the entries under the prefix, and so what is reflected
      refine ih hproper.tail fun now hnow => (hreflects now hnow).congr fun token => ?_
      rw [Store.visible?, hproper.apart change List.mem_cons_self]
      rfl
    | turn t =>
      have hnow := hproper.dated t.now List.mem_cons_self
      obtain ⟨reply, after, heq, hafter, hanswer⟩ :=
        perform_ends (b := ⟨keyPrefix, t.failureMode⟩) (s := ⟨g, t.counts, []⟩)
          (hreflects t.now List.mem_cons_self) hnow (hproper.fits t List.mem_cons_self)
      set made : Record := ⟨t, ⟨g, t.counts, []⟩, reply, after.events⟩ with hmade
      -- the mutations of this call come before those of the rest
      obtain ⟨records, hrecords, hlookups⟩ := ih hproper.tail fun now hmem =>
        Reflects.later hafter ((List.pairwise_cons.mp hproper.sorted).1 now hmem)
      refine ⟨made :: records, ?_, ?_⟩
      · rw [history, heq]
        simp only [hrecords, hmade]
      · intro past r future hsplit token hcall hblank
        -- the lookup is this call, or a later one
        cases past with
        | nil =>
          obtain ⟨rfl, -⟩ := List.cons.inj hsplit
          rw [List.flatMap_nil, List.append_nil]
          exact hanswer token hcall hblank
        | cons first past =>
          obtain ⟨rfl, hrest⟩ := List.cons.inj hsplit
          have := hlookups past r future hrest token hcall hblank
          rw [List.append_assoc] at this
          exact this

/-- **Revocation is exact over whole runs.**  From a store without keys under the prefix, a run does
not halt, and every lookup of a token that is not blank answers: if the store can be read, whether
the last mutation of the token is a revocation whose time is not over; if not, as the failure mode
says.  A layer that fails closed reports every revoked token. -/
theorem isRevoked_iff_lastMutation {g : Gate} {hs : List Happening}
    (hfresh : ∀ token, g.store.entries.get? (keyPrefix ++ token) = none)
    (hproper : Proper keyPrefix hs) :
    ∃ records, history keyPrefix g hs = (records, none) ∧
      ∀ past r future, records = past ++ r :: future → ∀ token, r.turn.call = .isRevoked token →
        Text.allBlank token = false → ∃ revoked, r.reply = .revoked revoked ∧
          (match (r.before.gate.call (·.get r.turn.now (keyPrefix ++ token))).1 with
          | .ok _ => revoked = true ↔ ∃ reason since ttlSeconds,
              lastOf? (past.flatMap (·.mutations keyPrefix)) token =
                some (.revoke token reason since ttlSeconds) ∧
              r.turn.now.nanos < since.nanos + ttlSeconds * nanosPerSecond
          | .error _ => revoked = r.turn.failureMode.revokedOnError) ∧
          (r.turn.failureMode = .failClosed →
            isRevokedBy (past.flatMap (·.mutations keyPrefix)) token r.turn.now = true →
            revoked = true) := by
  obtain ⟨records, hrecords, hlookups⟩ :=
    history_ok hs hproper fun now _ => Reflects.of_absent hfresh
  refine ⟨records, hrecords, fun past r future hsplit token hcall hblank => ?_⟩
  refine ⟨_, hlookups past r future hsplit token hcall hblank, ?_, ?_⟩
  · cases (r.before.gate.call (·.get r.turn.now (keyPrefix ++ token))).1 with
    | error _ => rfl
    | ok _ => exact isRevokedBy_iff
  · intro hclosed hrevoked
    cases (r.before.gate.call (·.get r.turn.now (keyPrefix ++ token))).1 with
    | error _ =>
      rw [hclosed]
      rfl
    | ok _ => exact hrevoked

/-- A token is revoked for a minute and looked up at the end of it: a nanosecond before, once with
and once without the store, and then. -/
def revokedForAMinute : List Happening :=
  [.turn ⟨.failSafe, .zero, ⟨0⟩, .add "4fd1c2b7" "stolen" 60⟩,
    .turn ⟨.failSafe, .zero, ⟨59999999999⟩, .isRevoked "4fd1c2b7"⟩,
    .outside fun g => { g with failing := true },
    .turn ⟨.failClosed, .zero, ⟨59999999999⟩, .isRevoked "4fd1c2b7"⟩,
    .outside fun g => { g with failing := false },
    .turn ⟨.failSafe, .zero, ⟨60000000000⟩, .isRevoked "4fd1c2b7"⟩]

theorem proper_revokedForAMinute : Proper "auth:blacklist:" revokedForAMinute where
  sorted := by decide
  dated now hnow := by
    have hmem : now = ⟨0⟩ ∨ now = ⟨59999999999⟩ ∨ now = ⟨60000000000⟩ := by
      simp only [times, revokedForAMinute, List.filterMap_cons, List.filterMap_nil, List.mem_cons,
        List.not_mem_nil, or_false] at hnow
      tauto
    rcases hmem with rfl | rfl | rfl <;> exact ⟨by decide, by decide⟩
  fits t ht := by
    simp only [revokedForAMinute, List.mem_cons, Happening.turn.injEq, List.not_mem_nil, or_false,
      reduceCtorEq, false_or] at ht
    rcases ht with rfl | rfl | rfl | rfl
    · exact (by decide : 60 ≤ Text.maxUnsigned)
    · trivial
    · trivial
    · trivial
  apart change hchange g token := by
    simp only [revokedForAMinute, List.mem_cons, Happening.outside.injEq, List.not_mem_nil,
      or_false, reduceCtorEq, false_or] at hchange
    rcases hchange with rfl | rfl <;> rfl

/-- The lookups of that run. -/
theorem isRevoked_revokedForAMinute :
    let g : Gate := .opened (fun _ => 0) .empty
    (∀ token, g.store.entries.get? ("auth:blacklist:" ++ token) = none) ∧
    Proper "auth:blacklist:" revokedForAMinute ∧
    (history "auth:blacklist:" g revokedForAMinute).1.filterMap (fun r => match r.reply with
      | .revoked b => some b
      | _ => none) = [true, true, false] ∧
    ∃ records, history "auth:blacklist:" g revokedForAMinute = (records, none) ∧
      ∀ past r future, records = past ++ r :: future → r.turn.call = .isRevoked "4fd1c2b7" →
        ∃ revoked, r.reply = .revoked revoked ∧ (r.turn.failureMode = .failClosed →
          isRevokedBy (past.flatMap (·.mutations "auth:blacklist:")) "4fd1c2b7" r.turn.now = true →
          revoked = true) := by
  intro g
  refine ⟨fun _ => rfl, proper_revokedForAMinute, by decide +kernel, ?_⟩
  obtain ⟨records, hrecords, hlookups⟩ :=
    isRevoked_iff_lastMutation (g := g) (fun _ => rfl) proper_revokedForAMinute
  refine ⟨records, hrecords, fun past r future hsplit hcall => ?_⟩
  obtain ⟨revoked, hreply, -, hclosed⟩ :=
    hlookups past r future hsplit "4fd1c2b7" hcall (by decide)
  exact ⟨revoked, hreply, hclosed⟩

end Bulwark.Blacklist
