import Bulwark.Proofs.Store.Failure
import Bulwark.Proofs.Store.Stepping

/-!
# Lifetimes of keys

A key gets a lifetime when a text is set, when it is given a new one, and by an admission step; a
hash that a write makes lasts for good (`Grants`).  From then on every reader sees the key exactly
as long as its time is not over, whatever else happens (`lifetime_exact`): reads, operations on
other keys and, while the key is there, writes to its hash do not move the end.  A write to a hash
whose time is over makes a new one, which lasts for good again.

The invariant is that the entry under the key, as long as it is live, has the deadline that was
granted (`HeldUntil`).  Where no clock can show the end of a lifetime there is no deadline, and the
time is not over on any clock.
-/

namespace Bulwark.Store

/-! ## What readers are told -/

/-- Readers are told of one entry under a key, or of none. -/
structure ReadersSee (s : Store) (now : Instant) (key : String) (entry : Option StoredEntry) :
    Prop where
  get : (s.get now key).1 = textAnswer key entry
  contains : (s.contains now key).1 = .ok entry.isSome
  hashGet : ∀ field, (s.hashGet now key field).1 = fieldAnswer key field entry
  ttl : (s.ttl now key).1 = .ok (ttlAnswer now entry)
  /-- A scan gives a page, and the key is on it exactly if it is live, asked for, and between the
  two cursors. -/
  scan : ∀ position keyPrefix cursor count, ∃ next keys,
    (s.scan position now keyPrefix cursor count).1 = .ok (next, keys) ∧
      (key ∈ keys ↔ entry.isSome = true ∧ Text.startsWith keyPrefix key = true ∧
        cursor ≤ position key ∧ (next ≠ 0 → position key < next))
  /-- The key is one more than without it, if it is live. -/
  size : s.size now = (s.delete now key).2.size now + if entry.isSome then 1 else 0

section Readers

variable {s : Store} {now : Instant} {key : String}

/-- The keys that a scan of all keys finds are those that can be seen. -/
theorem mem_map_candidates {k : String} :
    k ∈ (s.candidates (fun _ => 0) now "" 0).map (·.2) ↔ (s.visible? now k).isSome = true := by
  rw [List.mem_map]
  constructor
  · rintro ⟨⟨i, k⟩, hmem, rfl⟩
    exact (mem_candidates.mp hmem).2.1.2
  · intro hvisible
    exact ⟨(0, k), mem_candidates.mpr ⟨rfl, ⟨rfl, hvisible⟩, Nat.zero_le _⟩, rfl⟩

/-- Without a key that can be seen there is one key less, and else there are as many. -/
theorem size_delete : s.size now =
    (s.delete now key).2.size now + if (s.visible? now key).isSome then 1 else 0 := by
  set t := (s.delete now key).2 with ht
  have hmem : ∀ k, k ∈ (t.candidates (fun _ => 0) now "" 0).map (·.2) ↔
      k ≠ key ∧ (s.visible? now k).isSome = true := by
    intro k
    rw [mem_map_candidates, ht, visible?_delete]
    by_cases hk : k = key <;> simp [hk]
  have hnodup := s.nodup_candidates (fun _ => 0) now "" 0
  have hnodup' := t.nodup_candidates (fun _ => 0) now "" 0
  have hlength : ∀ u : Store,
      u.size now = ((u.candidates (fun _ => 0) now "" 0).map (·.2)).length := by
    intro u
    rw [size_eq_length_candidates, List.length_map]
  rw [hlength, hlength]
  split
  · rename_i hvisible
    have hcons : (key :: (t.candidates (fun _ => 0) now "" 0).map (·.2)).Nodup :=
      List.nodup_cons.mpr ⟨fun hin => ((hmem key).mp hin).1 rfl, hnodup'⟩
    show _ = (key :: _ : List String).length
    refine ((List.perm_ext_iff_of_nodup hnodup hcons).mpr fun k => ?_).length_eq
    rw [mem_map_candidates, List.mem_cons, hmem]
    by_cases hk : k = key
    · simp [hk, hvisible]
    · simp [hk]
  · rename_i hvisible
    refine ((List.perm_ext_iff_of_nodup hnodup hnodup').mpr fun k => ?_).length_eq
    rw [mem_map_candidates, hmem]
    by_cases hk : k = key
    · simp [hk, hvisible]
    · simp [hk]

/-- Readers are told what can be seen. -/
theorem readersSee_visible (s : Store) (now : Instant) (key : String) :
    ReadersSee s now key (s.visible? now key) where
  get := get_answer
  contains := contains_answer
  hashGet := hashGet_answer
  ttl := ttl_answer
  scan := by
    intro position keyPrefix cursor count
    obtain ⟨next, keys, hscan, hpage⟩ := s.scan_isPage position now keyPrefix count cursor
    refine ⟨next, keys, hscan, ?_⟩
    rw [hpage.mem_iff]
    unfold Matches
    tauto
  size := size_delete

end Readers

/-! ## Lifetimes -/

/-- Whether a lifetime that began at one moment is not over at another.  Without a length it never
is. -/
def isWithin (since : Instant) (lifetime : Option Duration) (t : Instant) : Bool :=
  lifetime.all fun d => t.nanos < since.nanos + d.nanos

/-- An entry is live until its lifetime is over. -/
theorem isLive_bind_later? {since t : Instant} (hsince : since.isHeld = true)
    (ht : t.isHeld = true) (value : StoredValue) (lifetime : Option Duration) :
    (⟨value, lifetime.bind since.later?⟩ : StoredEntry).isLive t = isWithin since lifetime t := by
  cases lifetime with
  | none => rfl
  | some d =>
    rw [Bool.eq_iff_iff, Option.bind_some, StoredEntry.isLive_later?_iff hsince ht]
    exact (decide_eq_true_iff ..).symm

section Grants

variable {α : Type}

/-- A command that gives a key a new lifetime or takes the key away. -/
def Command.resets (key : String) : Command α → Bool
  | .set k _ _ => k = key
  | .delete k => k = key
  | .expire k _ => k = key
  | .takeTokens k _ => k = key
  | .clear => true
  | _ => false

/-- A command that gives a key a lifetime, told by what is live there before and by the answer. -/
inductive Grants (key : String) (before : Option StoredEntry) :
    Command α → Except StoreError (Answer α) → Option Duration → Prop
  | set (text : String) (ttl : Option Duration) (answer : Except StoreError (Answer α)) :
      Grants key before (.set key text ttl) answer ttl
  /-- There was a key to give a lifetime to. -/
  | expire (ttl : Duration) : Grants key before (.expire key ttl) (.ok (.flag true)) (some ttl)
  | takeTokens (r : Bucket.Request α) (o : Bucket.Outcome α) :
      Grants key before (.takeTokens key r) (.ok (.outcome o)) (some (.ofSeconds r.ttlSeconds))
  /-- A write to a hash that is not there makes one that lasts for good. -/
  | makes {c : Command α} (opens : c.opens key = true) (keeps : c.resets key = false)
      (missing : before = none) (answer : Except StoreError (Answer α)) :
      Grants key before c answer none

end Grants

/-- The entry under a key, as long as it is live, has a deadline, whatever else it may be. -/
def HeldUntil (s : Store) (now : Instant) (key : String) (deadline : Option Instant) : Prop :=
  ∃ value, s.visible? now key = (some ⟨value, deadline⟩ : Option StoredEntry).filter (·.isLive now)

section Holding

variable {s t : Store} {now u : Instant} {key : String} {deadline : Option Instant}

theorem HeldUntil.later (h : s.HeldUntil now key deadline) (hle : now ≤ u) :
    s.HeldUntil u key deadline := by
  obtain ⟨value, hvisible⟩ := h
  refine ⟨value, ?_⟩
  rw [visible?_later hle, hvisible, filter_isLive_later hle]

theorem HeldUntil.congr (h : s.HeldUntil now key deadline)
    (hsame : t.visible? now key = s.visible? now key) : t.HeldUntil now key deadline := by
  obtain ⟨value, hvisible⟩ := h
  exact ⟨value, hsame.trans hvisible⟩

theorem heldUntil_put (value : StoredValue) (deadline : Option Instant) :
    (s.put key value deadline).HeldUntil now key deadline :=
  ⟨value, by rw [visible?_put, if_pos rfl]⟩

/-! ## Writes to hashes -/

/-- A write to what is live under a key leaves its deadline alone. -/
theorem visible?_hashUpdate {β : Type} {value : StoredValue}
    (h : s.visible? now key = some ⟨value, deadline⟩)
    (update : Table String → Except StoreError (β × Table String)) :
    ∃ value', (s.hashUpdate now key update).2.visible? now key = some ⟨value', deadline⟩ := by
  unfold hashUpdate
  cases hwritable : s.writable now key with
  | error e => exact ⟨value, h⟩
  | ok start =>
    obtain ⟨fields, deadline'⟩ := start
    obtain rfl : deadline' = deadline := by
      rcases writable_eq_ok_iff.mp hwritable with hvisible | ⟨hmissing, _, _⟩
      · cases h.symm.trans hvisible
        rfl
      · cases h.symm.trans hmissing
    dsimp only
    cases update fields with
    | error e => exact ⟨value, h⟩
    | ok result => exact ⟨_, visible?_put_of_writable hwritable _⟩

/-- A write where nothing is live makes a hash without a deadline, if it does not fail on an empty
one. -/
theorem visible?_hashUpdate_of_missing {β : Type} (h : s.visible? now key = none)
    {update : Table String → Except StoreError (β × Table String)}
    (hempty : ∀ e, update .empty ≠ .error e) :
    ∃ value, (s.hashUpdate now key update).2.visible? now key = some ⟨value, none⟩ := by
  have hwritable : s.writable now key = .ok (.empty, none) :=
    writable_eq_ok_iff.mpr (.inr ⟨h, rfl, rfl⟩)
  unfold hashUpdate
  rw [hwritable]
  dsimp only
  cases hupdate : update .empty with
  | error e => exact absurd hupdate (hempty e)
  | ok result => exact ⟨_, visible?_put_of_writable hwritable _⟩

theorem visible?_hashIncrementEach {value : StoredValue}
    (h : s.visible? now key = some ⟨value, deadline⟩) (increments : List (String × ℤ)) :
    ∃ value', (s.hashIncrementEach now key increments).2.visible? now key =
      some ⟨value', deadline⟩ := by
  induction increments generalizing s value with
  | nil => exact ⟨value, h⟩
  | cons i rest ih =>
    obtain ⟨value', hfirst⟩ : ∃ value', (s.hashIncrement now key i.1 i.2).2.visible? now key =
        some ⟨value', deadline⟩ := visible?_hashUpdate h _
    unfold hashIncrementEach
    generalize s.hashIncrement now key i.1 i.2 = r at hfirst ⊢
    obtain ⟨_ | sum, s'⟩ := r
    · exact ⟨value', hfirst⟩
    · exact ih hfirst

theorem visible?_hashIncrementEach_of_missing (h : s.visible? now key = none) (i : String × ℤ)
    (rest : List (String × ℤ)) :
    ∃ value, (s.hashIncrementEach now key (i :: rest)).2.visible? now key =
      some ⟨value, none⟩ := by
  obtain ⟨value, hfirst⟩ : ∃ value, (s.hashIncrement now key i.1 i.2).2.visible? now key =
      some ⟨value, none⟩ := visible?_hashUpdate_of_missing h nofun
  unfold hashIncrementEach
  generalize s.hashIncrement now key i.1 i.2 = r at hfirst ⊢
  obtain ⟨_ | sum, s'⟩ := r
  · exact ⟨value, hfirst⟩
  · exact visible?_hashIncrementEach hfirst rest

end Holding

section Commands

variable {α : Type} [Quantity α] [QuantityText α] (position : String → ℕ)
variable {s : Store} {since now : Instant} {key : String} {deadline : Option Instant}
  {c : Command α}

/-- A write to a hash under a key that is live leaves its deadline alone. -/
theorem visible?_hashWrite (hopens : c.opens key = true) (hkeeps : c.resets key = false)
    {value : StoredValue} (h : s.visible? now key = some ⟨value, deadline⟩) :
    ∃ value', (s.perform position now c).2.visible? now key = some ⟨value', deadline⟩ := by
  cases c with
  | hashSet k => cases of_decide_eq_true hopens; exact visible?_hashUpdate h _
  | hashIncrement k => cases of_decide_eq_true hopens; exact visible?_hashUpdate h _
  | hashIncrementAll k => cases of_decide_eq_true hopens; exact visible?_hashUpdate h _
  | hashIncrementEach k increments =>
    cases of_decide_eq_true (Bool.and_eq_true_iff.mp hopens).1
    exact visible?_hashIncrementEach h increments
  | takeTokens k => exact absurd hkeeps (Bool.not_eq_false _ ▸ hopens)
  | _ => cases hopens

/-- A write to a hash that is not there makes one without a deadline. -/
theorem visible?_hashWrite_of_missing (hopens : c.opens key = true)
    (hkeeps : c.resets key = false) (h : s.visible? now key = none) :
    ∃ value, (s.perform position now c).2.visible? now key = some ⟨value, none⟩ := by
  cases c with
  | hashSet k =>
    cases of_decide_eq_true hopens
    exact visible?_hashUpdate_of_missing h nofun
  | hashIncrement k =>
    cases of_decide_eq_true hopens
    exact visible?_hashUpdate_of_missing h nofun
  | hashIncrementAll k =>
    cases of_decide_eq_true hopens
    refine visible?_hashUpdate_of_missing h fun e => ?_
    rw [mapM_counters, fault?_empty]
    nofun
  | hashIncrementEach k increments =>
    obtain ⟨hk, hne⟩ := Bool.and_eq_true_iff.mp hopens
    cases of_decide_eq_true hk
    cases increments with
    | nil => cases hne
    | cons i rest => exact visible?_hashIncrementEach_of_missing h i rest
  | takeTokens k => exact absurd hkeeps (Bool.not_eq_false _ ▸ hopens)
  | _ => cases hopens

/-- Whatever neither resets a key nor writes to its hash leaves what can be seen there. -/
theorem visible?_untouched (hkeeps : c.resets key = false) (hopens : c.opens key = false) :
    (s.perform position now c).2.visible? now key = s.visible? now key := by
  have hother : ∀ {k : String}, decide (k = key) = false → some k ≠ some key :=
    fun hk heq => of_decide_eq_false hk (Option.some.inj heq)
  cases c with
  | get => exact visible?_read position rfl key
  | contains => exact visible?_read position rfl key
  | hashGet => exact visible?_read position rfl key
  | ttl => exact visible?_read position rfl key
  | clear => cases hkeeps
  | hashIncrementEach k increments =>
    cases increments with
    | nil => rfl
    | cons i rest =>
      refine visible?_perform position (.inr (hother ?_)) nofun
      simpa [Command.opens] using hopens
  | set => exact visible?_perform position (.inr (hother hkeeps)) nofun
  | delete => exact visible?_perform position (.inr (hother hkeeps)) nofun
  | expire => exact visible?_perform position (.inr (hother hkeeps)) nofun
  | takeTokens => exact visible?_perform position (.inr (hother hkeeps)) nofun
  | hashSet => exact visible?_perform position (.inr (hother hopens)) nofun
  | hashIncrement => exact visible?_perform position (.inr (hother hopens)) nofun
  | hashIncrementAll => exact visible?_perform position (.inr (hother hopens)) nofun
  | _ => exact visible?_perform position (.inr nofun) nofun

/-! ## Runs -/

/-- A key is held from the command on that gives it its lifetime. -/
theorem Grants.heldUntil {lifetime : Option Duration}
    (h : Grants key (s.visible? now key) c (s.perform position now c).1 lifetime) :
    (s.perform position now c).2.HeldUntil now key (lifetime.bind now.later?) := by
  generalize hanswer : (s.perform position now c).1 = answer at h
  cases h with
  | set text ttl => exact heldUntil_put _ _
  | expire ttl =>
    replace hanswer : Except.map Answer.flag (s.expire now key ttl).1 = .ok (.flag true) := hanswer
    show (s.expire now key ttl).2.HeldUntil now key (now.later? ttl)
    unfold Store.expire at hanswer ⊢
    cases hlive : s.live? now key with
    | none =>
      rw [hlive] at hanswer
      cases hanswer
    | some value => exact heldUntil_put _ _
  | takeTokens r o =>
    replace hanswer : Except.map Answer.outcome (s.takeTokens now key r).1 = .ok (.outcome o) :=
      hanswer
    show (s.takeTokens now key r).2.HeldUntil now key (now.later? (.ofSeconds r.ttlSeconds))
    unfold Store.takeTokens at hanswer ⊢
    cases hwritable : s.writable now key with
    | error e =>
      rw [hwritable] at hanswer
      cases hanswer
    | ok start => exact heldUntil_put _ _
  | makes hopens hkeeps hmissing =>
    obtain ⟨value, hvisible⟩ := visible?_hashWrite_of_missing position hopens hkeeps hmissing
    exact ⟨value, hvisible⟩

/-- What neither resets a key nor writes to its hash when its time is over leaves it held. -/
theorem HeldUntil.perform (h : s.HeldUntil now key deadline) (hkeeps : c.resets key = false)
    (hopens : c.opens key = true → ∀ value, (⟨value, deadline⟩ : StoredEntry).isLive now = true) :
    (s.perform position now c).2.HeldUntil now key deadline := by
  cases hc : c.opens key with
  | false => exact h.congr (visible?_untouched position hkeeps hc)
  | true =>
    obtain ⟨value, hvisible⟩ := h
    rw [Option.filter_some, if_pos (hopens hc value)] at hvisible
    obtain ⟨value', hvisible'⟩ := visible?_hashWrite position hc hkeeps hvisible
    refine ⟨value', ?_⟩
    rw [hvisible', Option.filter_some, if_pos (hopens hc value')]

/-- A key is held through every run that does not reset it, and does not write to its hash when its
time is over. -/
theorem HeldUntil.run (h : s.HeldUntil since key deadline) {i : Interval α}
    (hclock : (since :: (i.commands.map (·.1) ++ [i.now])).Pairwise (· ≤ ·))
    (hcommands : ∀ u ∈ i.commands, u.2.resets key = false ∧
      (u.2.opens key = true → ∀ value, (⟨value, deadline⟩ : StoredEntry).isLive u.1 = true)) :
    (i.run position s).HeldUntil i.now key deadline := by
  obtain ⟨commands, now⟩ := i
  unfold Interval.run
  induction commands generalizing s since with
  | nil => exact h.later (by simpa using hclock)
  | cons u rest ih =>
    obtain ⟨hfirst, hrest⟩ := List.pairwise_cons.mp hclock
    obtain ⟨hkeeps, hopens⟩ := hcommands u List.mem_cons_self
    have hnow := (h.later (hfirst u.1 List.mem_cons_self)).perform position hkeeps hopens
    exact ih hnow hrest fun v hv => hcommands v (List.mem_cons_of_mem _ hv)

/-- What a key is told to have left of its lifetime: the time up to its end, or for good where no
clock can show that end. -/
def ttlFrom (since : Instant) (lifetime : Option Duration) (now : Instant) : KeyTtl :=
  if isWithin since lifetime now then
    match lifetime with
    | none => .persistent
    | some d =>
      if Instant.isHeld ⟨since.nanos + d.nanos⟩ then
        .expires ⟨(since.nanos + d.nanos - now.nanos).toNat⟩
      else .persistent
  else .missing

/-- A key with a lifetime tells what is left of it. -/
theorem ttlAnswer_bind_later? (value : StoredValue) (lifetime : Option Duration) :
    ttlAnswer now (if isWithin since lifetime now then
      some ⟨value, lifetime.bind since.later?⟩ else none) = ttlFrom since lifetime now := by
  unfold ttlFrom
  split
  · cases lifetime with
    | none => rfl
    | some d =>
      show ttlAnswer now (some ⟨value, since.later? d⟩) = _
      cases hlater : since.later? d with
      | some limit =>
        obtain ⟨hsum, hheld⟩ := Instant.later?_eq_some_iff.mp hlater
        obtain rfl : limit = ⟨since.nanos + d.nanos⟩ := congrArg Instant.mk hsum
        exact (if_pos hheld).symm
      | none =>
        refine (if_neg fun hheld => ?_).symm
        cases hlater.symm.trans (Instant.later?_eq_some_iff.mpr ⟨rfl, hheld⟩)
  · rfl

/-- **Lifetimes are exact.**  When a command gives a key a lifetime, and from then on nothing resets
the key or writes to its hash once its time is over, every reader sees one entry there exactly until
the lifetime is over, and is told what is left of it; one without an end lasts for good. -/
theorem lifetime_exact {s : Store} {since : Instant} {key : String} {c : Command α}
    {lifetime : Option Duration} {i : Interval α} (hsince : since.isHeld = true)
    (hnow : i.now.isHeld = true)
    (hgrants : Grants key (s.visible? since key) c (s.perform position since c).1 lifetime)
    (hclock : (since :: (i.commands.map (·.1) ++ [i.now])).Pairwise (· ≤ ·))
    (hrun : ∀ u ∈ i.commands, u.2.resets key = false ∧
      (u.2.opens key = true → isWithin since lifetime u.1 = true)) :
    let t := i.run position (s.perform position since c).2
    (t.ttl i.now key).1 = .ok (ttlFrom since lifetime i.now) ∧
      ∃ value, t.ReadersSee i.now key (if isWithin since lifetime i.now then
        some ⟨value, lifetime.bind since.later?⟩ else none) := by
  intro t
  -- the commands of the run come between two moments that a clock can show
  have hheld : ∀ u ∈ i.commands, u.1.isHeld = true := by
    intro u hu
    have hmem := List.mem_map_of_mem (f := (·.1)) hu
    obtain ⟨hfirst, hrest⟩ := List.pairwise_cons.mp hclock
    exact Instant.isHeld_of_between hsince hnow (hfirst _ (List.mem_append_left _ hmem))
      ((List.pairwise_append.mp hrest).2.2 _ hmem _ List.mem_cons_self)
  have hcommands : ∀ u ∈ i.commands, u.2.resets key = false ∧ (u.2.opens key = true →
      ∀ value, (⟨value, lifetime.bind since.later?⟩ : StoredEntry).isLive u.1 = true) := by
    intro u hu
    obtain ⟨hkeeps, hwithin⟩ := hrun u hu
    exact ⟨hkeeps, fun hopens value =>
      (isLive_bind_later? hsince (hheld u hu) value lifetime).trans (hwithin hopens)⟩
  obtain ⟨value, hvisible⟩ := (hgrants.heldUntil position).run position hclock hcommands
  rw [Option.filter_some, isLive_bind_later? hsince hnow] at hvisible
  have hsee := readersSee_visible t i.now key
  rw [hvisible] at hsee
  exact ⟨by rw [hsee.ttl, ttlAnswer_bind_later?], value, hsee⟩

end Commands

/-- A hash with a lifetime of five more seconds, a write to it, one under another key, and a look
at it. -/
def extendedLife (now : Instant) : Interval ℚ where
  commands :=
    [(⟨3 * nanosPerSecond⟩, .hashIncrement "stats" "total" 1),
      (⟨4 * nanosPerSecond⟩, .set "other" "text" none),
      (⟨6 * nanosPerSecond⟩, .purge)]
  now

/-- Given five seconds at second two, the hash is there up to second seven and not in it. -/
theorem lifetime_exact_mixedStore :
    let since : Instant := ⟨2 * nanosPerSecond⟩
    let last : Instant := ⟨7 * nanosPerSecond - 1⟩
    let ended : Instant := ⟨7 * nanosPerSecond⟩
    let perform := @perform ℚ _ Quantity.fractions String.length
    let run := @Interval.run ℚ _ Quantity.fractions String.length
    let start := (perform since mixedStore (.expire "stats" (.ofSeconds 5))).2
    ((run start (extendedLife last)).ttl last "stats").1 = .ok (.expires ⟨1⟩) ∧
      (∃ value, (run start (extendedLife last)).ReadersSee last "stats"
        (some ⟨value, some ended⟩)) ∧
      (run start (extendedLife ended)).ReadersSee ended "stats" none := by
  intro since last ended perform run start
  have hgrants : Grants "stats" (mixedStore.visible? since "stats")
      (.expire "stats" (.ofSeconds 5) : Command ℚ)
      (perform since mixedStore (.expire "stats" (.ofSeconds 5))).1 (some (.ofSeconds 5)) :=
    .expire _
  have hexact := fun now => @lifetime_exact ℚ _ Quantity.fractions String.length mixedStore since
    "stats" (.expire "stats" (.ofSeconds 5)) (some (.ofSeconds 5)) (extendedLife now) rfl
  obtain ⟨httl, hseen⟩ := hexact last rfl hgrants (by decide) (by decide)
  obtain ⟨_, _, hgone⟩ := hexact ended rfl hgrants (by decide) (by decide)
  exact ⟨httl, hseen, hgone⟩

end Bulwark.Store
