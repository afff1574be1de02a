import Bulwark.Proofs.Revocation.Holdings
import Bulwark.Revocation.Listing

/-!
# Listings are exact

What a listing has given and what it is going to give next are together what it has seen, and it
takes in no token that it has seen.  So it gives no token twice, over whatever store
(`nodup_given`).

Over a store behind a gate, the steps come to what `listAll` answers at once (`listAll_steps`).  If
nothing fails that is the tokens whose keys are live, and after a run these are the tokens that are
revoked (`listAll_exact`).
-/

namespace Bulwark.Blacklist

/-! ## Any store -/

namespace Listing

variable {σ : Type} {keyPrefix : String} {scan : Scan σ} {l : Listing σ}

/-- The tokens that a listing has seen are given one after the other, and none is seen twice. -/
structure Orderly (l : Listing σ) : Prop where
  seen_eq : l.seen = l.given ++ l.buffer
  nodup : l.seen.Nodup

theorem orderly_start (store : σ) : (start store).Orderly := ⟨rfl, .nil⟩

theorem Orderly.withKey (h : l.Orderly) (key : String) : (l.withKey keyPrefix key).Orderly := by
  unfold Listing.withKey
  split
  · rename_i token _
    split
    · exact h
    · rename_i hnew
      have hnew : token ∉ l.seen := by simpa using hnew
      refine ⟨?_, ?_⟩
      · show l.seen ++ [token] = l.given ++ (l.buffer ++ [token])
        rw [h.seen_eq, List.append_assoc]
      · exact List.nodup_append.mpr ⟨h.nodup, List.nodup_singleton token, by
          rintro a ha _ hb rfl
          exact hnew (List.mem_singleton.mp hb ▸ ha)⟩
  · exact h

theorem Orderly.withKeys (h : l.Orderly) (keys : List String) :
    (keys.foldl (Listing.withKey keyPrefix) l).Orderly := by
  induction keys generalizing l with
  | nil => exact h
  | cons key rest ih => exact ih (h.withKey key)

theorem Orderly.step (h : l.Orderly) : (l.step keyPrefix scan).Orderly := by
  unfold Listing.step
  split
  · exact h
  · rename_i token rest _ hbuffer
    refine ⟨?_, h.nodup⟩
    show l.seen = (l.given ++ [token]) ++ rest
    rw [h.seen_eq, hbuffer, List.append_assoc, List.singleton_append]
  · split
    · exact ⟨h.seen_eq, h.nodup⟩
    · split
      · apply Orderly.withKeys
        exact ⟨h.seen_eq, h.nodup⟩
      · exact ⟨h.seen_eq, h.nodup⟩

theorem orderly_steps (keyPrefix : String) (scan : Scan σ) (store : σ) (n : ℕ) :
    ((step keyPrefix scan)^[n] (start store)).Orderly := by
  induction n with
  | zero => exact orderly_start store
  | succ n ih =>
    rw [Function.iterate_succ_apply']
    exact ih.step

/-- Whatever a store answers, no token is given twice. -/
theorem nodup_given (keyPrefix : String) (scan : Scan σ) (store : σ) (n : ℕ) :
    ((step keyPrefix scan)^[n] (start store)).given.Nodup := by
  have horderly := orderly_steps keyPrefix scan store n
  have hnodup := horderly.nodup
  rw [horderly.seen_eq] at hnodup
  exact (List.nodup_append.mp hnodup).1

/-! ## The buffer -/

/-- A listing whose buffer has been given. -/
def emptied (l : Listing σ) : Listing σ := { l with buffer := [], given := l.given ++ l.buffer }

/-- The buffer is given token by token. -/
theorem steps_buffer (h : l.ending = none) :
    (step keyPrefix scan)^[l.buffer.length] l = l.emptied := by
  obtain ⟨store, cursor, started, buffer, seen, given, ending⟩ := l
  obtain rfl : ending = none := h
  induction buffer generalizing given with
  | nil => simp [emptied]
  | cons token rest ih =>
    have hrest := ih (given ++ [token])
    simp only [emptied, List.append_assoc, List.singleton_append] at hrest ⊢
    exact hrest

/-- What the keys of a page make of a listing. -/
theorem emptied_withKeys (b : Blacklist) (h : l.Orderly) (keys : List String) :
    (keys.foldl (withKey b.keyPrefix) l).emptied =
      { l with
        buffer := []
        seen := b.withNewTokens l.seen keys
        given := b.withNewTokens l.seen keys } := by
  induction keys generalizing l with
  | nil =>
    show l.emptied = { l with buffer := [], seen := l.seen, given := l.seen }
    unfold emptied
    rw [← h.seen_eq]
  | cons key rest ih =>
    rw [List.foldl_cons, ih (h.withKey key)]
    unfold withKey withNewTokens
    rw [List.foldl_cons]
    cases Text.afterStart? b.keyPrefix key with
    | none => rfl
    | some token =>
      by_cases hseen : l.seen.contains token = true
      · simp only [hseen, if_true]
      · simp only [hseen, Bool.false_eq_true, if_false]

theorem nodup_withNewTokens (b : Blacklist) {seen : List String} (h : seen.Nodup)
    (keys : List String) : (b.withNewTokens seen keys).Nodup := by
  have hbefore : (Listing.mk () 0 false [] seen seen none).Orderly :=
    ⟨(List.append_nil seen).symm, h⟩
  have hseen := congrArg Listing.seen (emptied_withKeys b hbefore keys)
  rw [← show _ = b.withNewTokens seen keys from hseen]
  exact (hbefore.withKeys keys).nodup

/-! ## From page to page -/

/-- A listing between two pages, with all it has seen given. -/
def between (store : σ) (cursor : ℕ) (started : Bool) (seen : List String) : Listing σ :=
  ⟨store, cursor, started, [], seen, seen, none⟩

variable {store store' : σ} {cursor next : ℕ} {started : Bool} {seen keys : List String}

/-- A listing that has not come to the end asks for a page. -/
theorem step_between (hmore : ¬ (started = true ∧ cursor = 0)) :
    (between store cursor started seen).step keyPrefix scan =
      match scan keyPrefix cursor pageSize store with
      | (.ok (next, keys), store) =>
        keys.foldl (withKey keyPrefix) (between store next true seen)
      | (.error e, store) =>
        { between store cursor started seen with ending := some (.aborted e) } := by
  have hgoes : (started && cursor == 0) = false := by
    rw [Bool.eq_false_iff, Ne, Bool.and_eq_true, beq_iff_eq]
    exact hmore
  show (if (started && cursor == 0) = true then _ else _) = _
  rw [hgoes, if_neg Bool.false_ne_true]
  rfl

/-- A page is read, and its tokens are given. -/
theorem steps_page (b : Blacklist) (hmore : ¬ (started = true ∧ cursor = 0)) (hnodup : seen.Nodup)
    (h : scan b.keyPrefix cursor pageSize store = (.ok (next, keys), store')) :
    ∃ n, (step b.keyPrefix scan)^[n] (between store cursor started seen) =
      between store' next true (b.withNewTokens seen keys) := by
  set l := keys.foldl (withKey b.keyPrefix) (between store' next true seen) with hl
  have hstep : (between store cursor started seen).step b.keyPrefix scan = l := by
    rw [step_between hmore, h]
  have hgiven : l.emptied = between store' next true (b.withNewTokens seen keys) :=
    emptied_withKeys b ⟨(List.append_nil seen).symm, hnodup⟩ keys
  have hgoes : l.ending = none := congrArg Listing.ending hgiven
  refine ⟨l.buffer.length + 1, ?_⟩
  rw [Function.iterate_succ_apply, hstep, steps_buffer hgoes, hgiven]

end Listing

/-! ## The listing at once -/

/-- A listing comes to its end after so many steps, with the answer and the session that a call has
at once. -/
def RunsTo (b : Blacklist) (now : Instant) (l : Listing Gate) (s : Session) (tokens : List String)
    (t : Session) : Prop :=
  ∃ n ending, let m := (Listing.step b.keyPrefix (gateScan now))^[n] l
    m.given = tokens ∧ m.ending = some ending ∧
      t = { s with gate := m.store, events := s.events ++ ending.events }

section Running

variable {b : Blacklist} {now : Instant} {s t : Session} {tokens : List String} {l : Listing Gate}

/-- Some steps come first. -/
theorem RunsTo.of_steps {n : ℕ}
    (h : RunsTo b now ((Listing.step b.keyPrefix (gateScan now))^[n] l) s tokens t) :
    RunsTo b now l s tokens t := by
  obtain ⟨m, ending, hm⟩ := h
  rw [← Function.iterate_add_apply] at hm
  exact ⟨m + n, ending, hm⟩

/-- The pages from a cursor on, step by step and at once. -/
theorem listFrom_steps (fuel : ℕ) {cursor : ℕ} {started : Bool} {seen : List String}
    (hmore : ¬ (started = true ∧ cursor = 0)) (hnodup : seen.Nodup)
    (hfuel : (s.gate.store.candidates s.gate.position now b.keyPrefix cursor).length < fuel) :
    Ends (b.listFrom now fuel cursor seen) s
      (RunsTo b now (.between s.gate cursor started seen) s) := by
  induction fuel generalizing s cursor started seen with
  | zero => exact absurd hfuel (Nat.not_lt_zero _)
  | succ fuel ih =>
    obtain ⟨next, keys, hscan, hpage⟩ :=
      s.gate.store.scan_isPage s.gate.position now b.keyPrefix pageSize cursor
    rw [listFrom_succ]
    refine Ends.bind ?_
    show Ends (callStore (·.scan s.gate.position now b.keyPrefix cursor pageSize)) s _
    refine Ends.callStore_gate (fun e hrefusal => ?_) fun hpass => ?_
    · -- the page is refused, which ends the listing
      have hread : gateScan now b.keyPrefix cursor pageSize s.gate = (.error e, s.gate.next) :=
        Gate.call_of_refusal hrefusal _
      refine Ends.bind (Ends.report (Ends.pure ⟨1, .aborted e, ?_⟩))
      rw [Function.iterate_one, Listing.step_between hmore, hread]
      exact ⟨rfl, rfl, rfl⟩
    · set g := { s.gate.next with store := s.gate.store } with hg
      have hread : gateScan now b.keyPrefix cursor pageSize s.gate = (.ok (next, keys), g) := by
        have hcall := Gate.call_of_pass hpass
          (·.scan s.gate.position now b.keyPrefix cursor pageSize)
        rw [hscan] at hcall
        exact hcall
      obtain ⟨n, hsteps⟩ := Listing.steps_page b hmore hnodup hread
      rw [hscan]
      unfold listPage
      dsimp only
      by_cases hlast : next = 0
      · rw [if_pos hlast]
        refine Ends.pure (RunsTo.of_steps (n := n) ⟨1, .complete, ?_⟩)
        rw [hsteps, hlast]
        refine ⟨rfl, rfl, ?_⟩
        show _ = { s with gate := g, events := s.events ++ [] }
        rw [List.append_nil]
        rfl
      · rw [if_neg hlast]
        -- behind the page there are fewer keys
        have hfewer := hpage.length_candidates_lt hlast fun _ => id
        have hfuel' :
            (s.gate.store.candidates s.gate.next.position now b.keyPrefix next).length < fuel := by
          rw [Gate.next_position]
          omega
        have hrest : Ends (b.listFrom now fuel next (b.withNewTokens seen keys))
            { s with gate := g } (RunsTo b now
              (.between g next true (b.withNewTokens seen keys)) { s with gate := g }) :=
          ih (fun h => hlast h.2) (Listing.nodup_withNewTokens b hnodup keys) hfuel'
        refine hrest.mono fun tokens t hruns => RunsTo.of_steps (n := n) ?_
        rw [hsteps]
        exact hruns

/-- A listing at once is one step by step, whatever happens to its store calls. -/
theorem listAll_steps (b : Blacklist) (now : Instant) (s : Session) :
    Ends (b.listAll now) s (RunsTo b now (.start s.gate) s) := by
  refine Ends.bind (Ends.get (listFrom_steps _ (fun h => absurd h.1 Bool.false_ne_true) .nil ?_))
  exact Nat.lt_succ_of_le (Store.length_candidates_le 0 s.gate.store)

/-! ## What is listed -/

/-- A key of a page shows its token. -/
theorem mem_withNewTokens_singleton {seen : List String} {key token : String} :
    token ∈ b.withNewTokens seen [key] ↔ token ∈ seen ∨ b.key token = key := by
  unfold withNewTokens
  rw [List.foldl_cons, List.foldl_nil]
  cases hkey : Text.afterStart? b.keyPrefix key with
  | none =>
    have hother : b.key token ≠ key := by
      rintro rfl
      rw [Blacklist.key, Text.afterStart?_append] at hkey
      cases hkey
    simp [hother]
  | some shown =>
    obtain rfl := Text.afterStart?_eq_some_iff.mp hkey
    have hsame : b.key token = b.keyPrefix ++ shown ↔ token = shown := String.append_right_inj _
    rw [hsame]
    by_cases hseen : shown ∈ seen
    · have hstays : token = shown → token ∈ seen := by
        rintro rfl
        exact hseen
      simpa [hseen] using hstays
    · simp [hseen]

theorem mem_withNewTokens {seen keys : List String} {token : String} :
    token ∈ b.withNewTokens seen keys ↔ token ∈ seen ∨ b.key token ∈ keys := by
  induction keys generalizing seen with
  | nil => simp [withNewTokens]
  | cons key rest ih =>
    have hcons : b.withNewTokens seen (key :: rest) =
        b.withNewTokens (b.withNewTokens seen [key]) rest := rfl
    rw [hcons, ih, mem_withNewTokens_singleton, List.mem_cons, or_assoc]

/-- Nothing has happened between two sessions but calls past an open gate that only read. -/
structure OnlyRead (s t : Session) : Prop where
  isOpen : t.gate.IsOpen
  store : t.gate.store = s.gate.store
  position : t.gate.position = s.gate.position
  events : t.events = s.events
  counts : t.counts = s.counts

theorem listFrom_open (hopen : s.gate.IsOpen) (fuel cursor : ℕ) (seen : List String) :
    Ends (b.listFrom now fuel cursor seen) s fun tokens t =>
      tokens = b.withNewTokens seen
        (s.gate.store.pagesFrom s.gate.position now b.keyPrefix pageSize fuel cursor).flatten ∧
      OnlyRead s t := by
  induction fuel generalizing s cursor seen with
  | zero => exact Ends.pure ⟨rfl, hopen, rfl, rfl, rfl, rfl⟩
  | succ fuel ih =>
    obtain ⟨next, keys, hscan, -⟩ :=
      s.gate.store.scan_isPage s.gate.position now b.keyPrefix pageSize cursor
    rw [listFrom_succ, Store.pagesFrom_succ hscan, List.flatten_cons]
    refine Ends.bind ?_
    show Ends (callStore (·.scan s.gate.position now b.keyPrefix cursor pageSize)) s _
    refine Ends.callStore_gate (fun e hrefusal => ?_) fun _ => ?_
    · cases hopen.refusal?.symm.trans hrefusal
    · set t : Session := { s with gate := { s.gate.next with store := s.gate.store } } with ht
      have hread : OnlyRead s t :=
        ⟨⟨hopen.next.plan_nil, hopen.next.connected⟩, rfl, Gate.next_position _, rfl, rfl⟩
      rw [hscan]
      unfold listPage
      dsimp only
      by_cases hlast : next = 0
      · rw [if_pos hlast, if_pos hlast]
        refine Ends.pure ⟨?_, hread⟩
        rw [List.flatten_nil, List.append_nil]
      · rw [if_neg hlast, if_neg hlast]
        refine (ih (s := t) hread.isOpen next _).mono ?_
        rintro tokens u ⟨htokens, hu⟩
        refine ⟨?_, hu.isOpen, hu.store, hu.position.trans hread.position, hu.events, hu.counts⟩
        rw [htokens, hread.position]
        exact (List.foldl_append ..).symm

/-- Past an open gate a listing gives the tokens on the pages of a walk. -/
theorem listAll_open (b : Blacklist) (now : Instant) (hopen : s.gate.IsOpen) :
    Ends (b.listAll now) s fun tokens t => tokens = b.withNewTokens []
      (s.gate.store.pages s.gate.position now b.keyPrefix pageSize).flatten ∧ OnlyRead s t :=
  Ends.bind (Ends.get (listFrom_open hopen _ 0 []))

/-- These are the tokens whose keys are live. -/
theorem mem_pages_tokens {g : Gate} {token : String} :
    token ∈ b.withNewTokens [] (g.store.pages g.position now b.keyPrefix pageSize).flatten ↔
      (g.store.visible? now (b.key token)).isSome = true := by
  rw [mem_withNewTokens, Store.mem_pages_iff, Store.Matches]
  simp [Blacklist.key]

/-- A listing that reports nothing has been complete. -/
theorem ending_eq_complete {ending : ListingEnd} {events : List Event}
    (h : events ++ ending.events = events) : ending = .complete := by
  cases ending with
  | complete => rfl
  | aborted e => simp [ListingEnd.events] at h

end Running

/-- **A listing gives exactly the revoked tokens.**  From a store without keys under the prefix,
after any run in which nobody else touches these, and as long as the clock never goes back and stays
before the end of the calendar: while the store is there, a listing ends with every token for which
a lookup answers that it is revoked, each once, and with no other.  It makes no difference whether
it is read at once or step by step, and a second listing gives the same tokens.  Over any other
store, whatever its pages show, a listing gives no token twice. -/
theorem listAll_exact :
    (∀ (b : Blacklist) (g g' : Gate) (hs : List Happening) (now : Instant)
      (counts : RevocationCount) (events : List Event),
      (∀ token, g.store.entries.get? (b.keyPrefix ++ token) = none) →
      Ordinary b.keyPrefix hs → (times hs ++ [now]).Pairwise (· ≤ ·) → now.date < .latest →
      gateAfter b.keyPrefix g hs = .ok g' → g'.IsOpen →
      let s : Session := ⟨g', counts, events⟩
      ∃ tokens t, b.listAll now s = .ok (tokens, t) ∧ tokens.Nodup ∧
        (∀ token, (b.isRevoked now token s).map Prod.fst = .ok (decide (token ∈ tokens))) ∧
        (∃ n, let l := (Listing.step b.keyPrefix (gateScan now))^[n] (.start g')
          l.given = tokens ∧ l.ending = some .complete) ∧
        ∃ u, b.listAll now t = .ok (tokens, u)) ∧
    ∀ (σ : Type) (keyPrefix : String) (scan : Scan σ) (store : σ) (n : ℕ),
      ((Listing.step keyPrefix scan)^[n] (.start store)).given.Nodup := by
  refine ⟨?_, fun σ keyPrefix scan store n => Listing.nodup_given keyPrefix scan store n⟩
  intro b g g' hs now counts events hfresh hordinary hsorted hnow hends hopen s
  -- the clock of the run starts somewhere, and there is nothing under the prefix by then
  obtain ⟨first, rest, htimes⟩ : ∃ first rest, times hs ++ [now] = first :: rest :=
    List.exists_cons_of_ne_nil (by simp)
  have hstart : (first :: (times hs ++ [now])).Pairwise (· ≤ ·) := by
    refine List.pairwise_cons.mpr ⟨fun t ht => ?_, hsorted⟩
    rw [htimes] at ht hsorted
    rcases List.mem_cons.mp ht with rfl | ht
    · exact Instant.le_refl t
    · exact (List.pairwise_cons.mp hsorted).1 t ht
  have hkeeps : KeepsRevocations b.keyPrefix now s.gate.store :=
    gateAfter_keeps hordinary hstart hnow (.of_absent hfresh first) hends
  obtain ⟨_, t, hlist, rfl, hread⟩ := listAll_open b now (s := s) hopen
  refine ⟨_, t, hlist, Listing.nodup_withNewTokens b .nil _, fun token => ?_, ?_, ?_⟩
  · rw [isRevoked_of_keeps hnow hkeeps hopen]
    congr 1
    rw [Bool.eq_iff_iff, decide_eq_true_eq]
    exact mem_pages_tokens.symm
  · obtain ⟨_, _, hlist', n, ending, hgiven, hending, ht⟩ := listAll_steps b now s
    obtain ⟨rfl, rfl⟩ := Prod.mk.inj (Except.ok.inj (hlist'.symm.trans hlist))
    have hevents : s.events ++ ending.events = s.events :=
      (congrArg Session.events ht).symm.trans hread.events
    rw [ending_eq_complete hevents] at hending
    exact ⟨n, hgiven, hending⟩
  · obtain ⟨_, u, hagain, rfl, -⟩ := listAll_open b now hread.isOpen
    refine ⟨u, ?_⟩
    rw [hagain, hread.store, hread.position]

/-- Revocations of a token and of another with the prefix in it, and of a blank one, which is passed
over; beside them one that is lifted, one that is over by the end, and a lifting that fails. -/
def listedRun : List Happening :=
  [.turn ⟨.failSafe, .zero, ⟨0⟩, .add "4fd1" "stolen" 30⟩,
    .turn ⟨.failSafe, .zero, ⟨1⟩, .sweep⟩,
    .turn ⟨.failSafe, .zero, ⟨1⟩, .addEach ["77a0", "bl:77a0", " ", "77a0"] "logout" 60⟩,
    .turn ⟨.failSafe, .zero, ⟨1⟩, .add "9be2" "stolen" 60⟩,
    .outside fun g => { g with failing := true },
    .turn ⟨.failSafe, .zero, ⟨2⟩, .remove "77a0"⟩,
    .outside fun g => { g with failing := false },
    .turn ⟨.failSafe, .zero, ⟨3⟩, .remove "9be2"⟩]

theorem ordinary_listedRun : Ordinary "bl:" listedRun where
  fits t ht := by
    simp only [listedRun, List.mem_cons, Happening.turn.injEq, List.not_mem_nil, or_false,
      reduceCtorEq, false_or] at ht
    rcases ht with rfl | rfl | rfl | rfl | rfl | rfl
    · exact (by decide : 30 ≤ Text.maxUnsigned)
    · trivial
    · exact (by decide : 60 ≤ Text.maxUnsigned)
    · exact (by decide : 60 ≤ Text.maxUnsigned)
    · trivial
    · trivial
  apart change hchange g token := by
    simp only [listedRun, List.mem_cons, Happening.outside.injEq, List.not_mem_nil,
      or_false, reduceCtorEq, false_or] at hchange
    rcases hchange with rfl | rfl <;> rfl

/-- The listing after that run. -/
theorem listAll_exact_listedRun :
    let b : Blacklist := ⟨"bl:", .failClosed⟩
    let g : Gate := .opened String.length .empty
    let now : Instant := ⟨60000000000⟩
    Ordinary b.keyPrefix listedRun ∧ (times listedRun ++ [now]).Pairwise (· ≤ ·) ∧
    ∃ g', gateAfter b.keyPrefix g listedRun = .ok g' ∧ g'.IsOpen ∧
      ∃ tokens t, b.listAll now ⟨g', .zero, []⟩ = .ok (tokens, t) ∧ tokens.Nodup ∧
        ["77a0", "bl:77a0", " ", "9be2", "4fd1"].map (decide <| · ∈ tokens) =
          [true, true, false, false, false] := by
  intro b g now
  have hsorted : (times listedRun ++ [now]).Pairwise (· ≤ ·) := by decide
  have hrun : (gateAfter b.keyPrefix g listedRun).toOption.any (fun g' =>
      g'.plan.isEmpty && !g'.failing &&
        ["77a0", "bl:77a0", " ", "9be2", "4fd1"].map (fun token =>
          ((b.isRevoked now token ⟨g', .zero, []⟩).map Prod.fst).toOption) =
        [some true, some true, some false, some false, some false]) = true := by
    decide +kernel
  refine ⟨ordinary_listedRun, hsorted, ?_⟩
  cases hgate : gateAfter b.keyPrefix g listedRun with
  | error halt =>
    rw [hgate] at hrun
    cases hrun
  | ok g' =>
    rw [hgate] at hrun
    simp only [Except.toOption, Option.any_some, Bool.and_eq_true, List.isEmpty_iff,
      Bool.not_eq_true'] at hrun
    obtain ⟨⟨hplan, hconnected⟩, hlookups⟩ := hrun
    obtain ⟨tokens, t, hlist, hnodup, hrevoked, -⟩ := listAll_exact.1 b g g' listedRun now .zero []
      (fun _ => rfl) ordinary_listedRun hsorted (by decide) hgate ⟨hplan, hconnected⟩
    refine ⟨g', rfl, ⟨hplan, hconnected⟩, tokens, t, hlist, hnodup, ?_⟩
    simp only [hrevoked] at hlookups
    simpa using hlookups

end Bulwark.Blacklist
