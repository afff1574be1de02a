import Bulwark.Proofs.Store.Expiry
import Bulwark.Proofs.Store.Local

/-!
# Buckets through a store

A store keeps a bucket as two texts in a hash that expires.  An admission step finds a bucket there
or none (`Finds`), goes on from it by the rules of buckets, and leaves the new one in writing, with
a new deadline and with everything else as it was (`Writes`).  Where numbers read back from their
written form, a run of steps under a key gives what the rules of buckets give, starting over
whenever the key has expired or was deleted (`takeTokens_refines`).

The invariant is that a store keeps what is known of the bucket: nothing, or the bucket that the
last step left, until its deadline (`Keeps`).  It looks at the view of readers only, so operations
on other keys, purges and time all keep it.
-/

namespace Bulwark.Store

/-! ## One step -/

section Step

variable {α : Type} [QuantityText α]

/-- The number in a field, if there is one that can be read. -/
def number? (fields : Table String) (field : String) : Option α :=
  (fields.get? field).bind QuantityText.read?

/-- What an admission step finds under a key that holds no text. -/
inductive Finds (s : Store) (now : Instant) (key : String) (moment : α) : Option (Bucket α) → Prop
  /-- The key is missing or has expired. -/
  | absent : s.visible? now key = none → Finds s now key moment none
  /-- The hash has no tokens that can be read. -/
  | unreadable {fields : Table String} {deadline : Option Instant} :
      s.visible? now key = some ⟨.hash fields, deadline⟩ →
      number? (α := α) fields Bucket.tokensField = none → Finds s now key moment none
  /-- Only the refill time cannot be read, so the bucket counts from now. -/
  | undated {fields : Table String} {deadline : Option Instant} {tokens : α} :
      s.visible? now key = some ⟨.hash fields, deadline⟩ →
      number? fields Bucket.tokensField = some tokens →
      number? (α := α) fields Bucket.lastRefillField = none →
      Finds s now key moment (some ⟨tokens, moment⟩)
  /-- Both numbers can be read. -/
  | whole {fields : Table String} {deadline : Option Instant} {tokens lastRefill : α} :
      s.visible? now key = some ⟨.hash fields, deadline⟩ →
      number? fields Bucket.tokensField = some tokens →
      number? fields Bucket.lastRefillField = some lastRefill →
      Finds s now key moment (some ⟨tokens, lastRefill⟩)

/-- A key holds a bucket in writing, with a lifetime from a moment on.  The other fields are those
of the live hash that was there before. -/
def Written (s : Store) (now : Instant) (key : String) (ttlSeconds : ℕ) (b : Bucket α)
    (t : Store) : Prop :=
  ∃ fields, t.entries.get? key = some ⟨.hash fields, now.later? (.ofSeconds ttlSeconds)⟩ ∧
    fields.get? Bucket.tokensField = some (QuantityText.render b.tokens) ∧
    fields.get? Bucket.lastRefillField = some (QuantityText.render b.lastRefill) ∧
    ∀ field, field ≠ Bucket.tokensField → field ≠ Bucket.lastRefillField →
      fields.get? field = (s.fieldsAt now key).get? field

/-- What an admission step leaves: the bucket in writing under its key, and all else as it was. -/
structure Writes (s : Store) (now : Instant) (key : String) (ttlSeconds : ℕ) (b : Bucket α)
    (t : Store) : Prop where
  entry : s.Written now key ttlSeconds b t
  others : ∀ k, k ≠ key → t.entries.get? k = s.entries.get? k

variable {s s' t t' : Store} {now : Instant} {key : String} {moment : α}
  {current : Option (Bucket α)}

theorem bucketOf?_eq (fields : Table String) (moment : α) :
    bucketOf? fields moment = (number? fields Bucket.tokensField).map fun tokens =>
      ⟨tokens, (number? fields Bucket.lastRefillField).getD moment⟩ := rfl

theorem not_text_of_hash {fields : Table String} {deadline : Option Instant}
    (h : s.visible? now key = some ⟨.hash fields, deadline⟩) : ¬ s.holdsText now key := by
  rintro ⟨text, limit, htext⟩
  rw [h, Option.some.injEq, StoredEntry.mk.injEq] at htext
  exact absurd htext.1 nofun

theorem fieldsAt_of_hash {fields : Table String} {deadline : Option Instant}
    (h : s.visible? now key = some ⟨.hash fields, deadline⟩) : s.fieldsAt now key = fields := by
  unfold fieldsAt
  rw [h]

/-- A step finds something in every store but for a text, and it finds one thing. -/
theorem finds_iff :
    s.Finds now key moment current ↔
      ¬ s.holdsText now key ∧ bucketOf? (s.fieldsAt now key) moment = current := by
  constructor
  · intro h
    cases h with
    | absent hnone =>
      exact ⟨not_text_of_not_visible hnone, by
        rw [fieldsAt_of_not_visible hnone, bucketOf?_empty]⟩
    | unreadable hhash htokens =>
      exact ⟨not_text_of_hash hhash, by
        rw [fieldsAt_of_hash hhash, bucketOf?_eq, htokens, Option.map_none]⟩
    | undated hhash htokens htime =>
      exact ⟨not_text_of_hash hhash, by
        rw [fieldsAt_of_hash hhash, bucketOf?_eq, htokens, htime, Option.map_some,
          Option.getD_none]⟩
    | whole hhash htokens htime =>
      exact ⟨not_text_of_hash hhash, by
        rw [fieldsAt_of_hash hhash, bucketOf?_eq, htokens, htime, Option.map_some,
          Option.getD_some]⟩
  · rintro ⟨htext, rfl⟩
    cases hvisible : s.visible? now key with
    | none =>
      rw [fieldsAt_of_not_visible hvisible, bucketOf?_empty]
      exact .absent hvisible
    | some e =>
      obtain ⟨text | fields, deadline⟩ := e
      · exact absurd ⟨text, deadline, hvisible⟩ htext
      · rw [fieldsAt_of_hash hvisible, bucketOf?_eq]
        cases htokens : number? (α := α) fields Bucket.tokensField with
        | none => exact .unreadable hvisible htokens
        | some tokens =>
          cases htime : number? (α := α) fields Bucket.lastRefillField with
          | none => exact .undated hvisible htokens htime
          | some lastRefill => exact .whole hvisible htokens htime

/-- What a step finds depends on the entry under its key. -/
theorem Finds.congr (h : s.Finds now key moment current)
    (hentry : t.entries.get? key = s.entries.get? key) : t.Finds now key moment current := by
  have hview : t.visible? now key = s.visible? now key := by
    unfold visible?
    rw [hentry]
  cases h with
  | absent hnone => exact .absent (hview.trans hnone)
  | unreadable hhash htokens => exact .unreadable (hview.trans hhash) htokens
  | undated hhash htokens htime => exact .undated (hview.trans hhash) htokens htime
  | whole hhash htokens htime => exact .whole (hview.trans hhash) htokens htime

/-- What is in writing under a key depends on the entries under it. -/
theorem Written.congr {ttlSeconds : ℕ} {b : Bucket α} (h : s.Written now key ttlSeconds b t)
    (hbefore : s'.entries.get? key = s.entries.get? key)
    (hafter : t'.entries.get? key = t.entries.get? key) : s'.Written now key ttlSeconds b t' := by
  obtain ⟨fields, hentry, htokens, htime, hrest⟩ := h
  refine ⟨fields, hafter.trans hentry, htokens, htime, ?_⟩
  unfold fieldsAt visible? at hrest ⊢
  rw [hbefore]
  exact hrest

theorem Written.not_text {ttlSeconds : ℕ} {b : Bucket α} (h : s.Written now key ttlSeconds b t)
    (later : Instant) : ¬ t.holdsText later key := by
  obtain ⟨fields, hentry, _⟩ := h
  rintro ⟨text, deadline, htext⟩
  obtain ⟨hhash, _⟩ := visible?_eq_some_iff.mp htext
  rw [hentry, Option.some.injEq, StoredEntry.mk.injEq] at hhash
  exact absurd hhash.1 nofun

/-- A text is in the way of a step. -/
theorem takeTokens_of_text [Quantity α] (h : s.holdsText now key) (r : Bucket.Request α) :
    s.takeTokens now key r = (.error (wrongType key), s) := by
  obtain ⟨text, deadline, hvisible⟩ := h
  have hwritable : s.writable now key = .error (wrongType key) := by
    unfold writable
    rw [← visible?, hvisible]
  unfold takeTokens
  rw [hwritable]

theorem writes_put (s : Store) (now : Instant) (key : String) (ttlSeconds : ℕ) (b : Bucket α) :
    s.Writes now key ttlSeconds b
      (s.put key (.hash (withBucket (s.fieldsAt now key) b))
        (now.later? (.ofSeconds ttlSeconds))) where
  entry := by
    have hne : Bucket.tokensField ≠ Bucket.lastRefillField := by decide
    refine ⟨_, (get?_put _ _).trans (if_pos rfl), ?_, ?_, fun field htokens htime => ?_⟩
    · rw [withBucket, Table.get?_insert, if_neg hne, Table.get?_insert, if_pos rfl]
    · rw [withBucket, Table.get?_insert, if_pos rfl]
    · rw [withBucket, Table.get?_insert, if_neg htime, Table.get?_insert, if_neg htokens]
  others := fun k hk => (get?_put _ _).trans (if_neg hk)

/-- What a step does with the bucket that it finds. -/
theorem takeTokens_of_finds [Quantity α] {r : Bucket.Request α}
    (h : s.Finds now key r.now current) :
    (s.takeTokens now key r).1 = .ok (r.apply current).2 ∧
      s.Writes now key r.ttlSeconds (r.apply current).1 (s.takeTokens now key r).2 := by
  obtain ⟨htext, rfl⟩ := finds_iff.mp h
  rw [takeTokens_eq htext]
  exact ⟨rfl, writes_put s now key r.ttlSeconds _⟩

end Step

/-! ## Runs of steps -/

section Runs

variable {α : Type}

/-- A bucket as a step has left it. -/
structure Known (α : Type) where
  bucket : Bucket α
  /-- The moment from which on it counts as gone. -/
  deadline : Option Instant
  deriving DecidableEq, Repr

/-- What is left of a known bucket. -/
def Known.current (now : Instant) (known : Option (Known α)) : Option (Bucket α) :=
  (known.filter (·.deadline.all (now < ·))).map (·.bucket)

/-- What is known of the bucket under a key after a command: what a step leaves, and nothing once
the key is deleted. -/
def Known.after [Quantity α] (key : String) (now : Instant) (known : Option (Known α)) :
    Command α → Option (Known α)
  | .takeTokens k r =>
    if k = key then
      some ⟨(r.apply (Known.current now known)).1, now.later? (.ofSeconds r.ttlSeconds)⟩
    else known
  | .delete k => if k = key then none else known
  | .clear => none
  | _ => known

/-- The outcome of an admission step under a key, by the rules of buckets alone: it goes on from
what is left of the known bucket, and starts over if nothing is. -/
def Known.outcome? [Quantity α] (key : String) (now : Instant) (known : Option (Known α)) :
    Command α → Option (Bucket.Outcome α)
  | .takeTokens k r => if k = key then some (r.apply (Known.current now known)).2 else none
  | _ => none

/-- The outcomes of the admission steps under a key in a run, by the rules of buckets alone. -/
def outcomes [Quantity α] (key : String) :
    Option (Known α) → List (Instant × Command α) → List (Bucket.Outcome α)
  | _, [] => []
  | known, (now, c) :: rest =>
    (Known.outcome? key now known c).toList ++ outcomes key (Known.after key now known c) rest

/-- Whether a command writes to a key by admission steps only.  It may delete or read it, too. -/
def Command.stepsOn (key : String) : Command α → Bool
  | .takeTokens _ _ => true
  | .delete _ => true
  | c => c.isRead || c.key? ≠ some key

/-- The answer to an admission step under a key. -/
def stepAnswer? (key : String) :
    Command α × Except StoreError (Answer α) → Option (Except StoreError (Answer α))
  | (.takeTokens k _, answer) => if k = key then some answer else none
  | _ => none

variable [QuantityText α]

/-- What a store shows under a key, when nothing or a bucket is known of it. -/
inductive Keeps (s : Store) (last : Instant) (key : String) : Option (Known α) → Prop
  | nothing : s.visible? last key = none → Keeps s last key none
  | bucket {b : Bucket α} {deadline : Option Instant} {fields : Table String} :
      s.visible? last key =
        (some ⟨.hash fields, deadline⟩ : Option StoredEntry).filter (·.isLive last) →
      (∀ moment, bucketOf? fields moment = some b) → Keeps s last key (some ⟨b, deadline⟩)

variable {s t : Store} {last now : Instant} {key : String} {known : Option (Known α)}

theorem isLive_eq_all (value : StoredValue) (deadline : Option Instant) :
    (⟨value, deadline⟩ : StoredEntry).isLive now = deadline.all (now < ·) := by
  cases deadline <;> rfl

/-- Whoever sees the same under the key keeps the same, and time takes away what has expired. -/
theorem Keeps.congr (h : s.Keeps last key known) (hle : last ≤ now)
    (hview : t.visible? now key = s.visible? now key) : t.Keeps now key known := by
  rw [visible?_later (s := s) hle] at hview
  cases h with
  | nothing hnone =>
    rw [hnone, Option.filter_none] at hview
    exact .nothing hview
  | bucket hsome hread =>
    rw [hsome, filter_isLive_later hle] at hview
    exact .bucket hview hread

/-- A step finds what is left of the known bucket. -/
theorem Keeps.finds (h : s.Keeps now key known) (moment : α) :
    s.Finds now key moment (Known.current now known) := by
  cases h with
  | nothing hnone => exact .absent hnone
  | @bucket b deadline fields hsome hread =>
    unfold Known.current
    rw [Option.filter_some, ← isLive_eq_all (.hash fields)]
    rw [Option.filter_some] at hsome
    split at hsome
    · rename_i hlive
      rw [if_pos hlive]
      refine finds_iff.mpr ⟨not_text_of_hash hsome, ?_⟩
      rw [fieldsAt_of_hash hsome, hread]
      rfl
    · rename_i hdead
      rw [if_neg hdead]
      exact .absent hsome

/-- What a step writes is known from then on. -/
theorem Writes.keeps (lossless : QuantityText.Lossless α) {ttlSeconds : ℕ} {b : Bucket α}
    (h : s.Writes now key ttlSeconds b t) :
    t.Keeps now key (some ⟨b, now.later? (.ofSeconds ttlSeconds)⟩) := by
  obtain ⟨fields, hentry, htokens, htime, _⟩ := h.entry
  have hshown : t.visible? now key = (some ⟨.hash fields, now.later? (.ofSeconds ttlSeconds)⟩ :
      Option StoredEntry).filter (·.isLive now) := by
    rw [visible?, hentry]
  refine .bucket hshown fun moment => ?_
  rw [bucketOf?_eq]
  unfold number?
  rw [htokens, htime, Option.bind_some, Option.bind_some, lossless b.tokens,
    lossless b.lastRefill]
  rfl

variable [Quantity α] (position : String → ℕ)

/-- Reading does not change what can be seen. -/
theorem visible?_read {c : Command α} (hread : c.isRead = true) (k : String) :
    (s.perform position now c).2.visible? now k = s.visible? now k := by
  have hle := Instant.le_refl now
  cases c with
  | get key => exact visible?_get hle
  | contains key => exact visible?_dropExpired hle
  | ttl key => exact visible?_ttl hle
  | hashGet key field =>
    show (s.hashGet now key field).2.visible? now k = _
    unfold hashGet
    split
    · exact visible?_dropExpired hle
    · rfl
    · rfl
  | _ => cases hread

/-- A command that reads a key, or is not about it, does not change what can be seen there, unless
it clears the store. -/
theorem visible?_perform {c : Command α} (h : c.isRead = true ∨ c.key? ≠ some key)
    (hclear : c ≠ .clear) :
    (s.perform position now c).2.visible? now key = s.visible? now key := by
  rcases h with hread | hkey
  · exact visible?_read position hread key
  cases hc : c.key? with
  | some k =>
    have hne : key ≠ k := fun heq => hkey (by rw [hc, heq])
    unfold visible?
    rw [(perform_actsOn now k position hc).frame s key hne]
  | none =>
    cases c with
    | scan => rfl
    | size => rfl
    | purge => exact purge_sameView now s key
    | clear => exact absurd rfl hclear
    | _ => cases hc

/-- A command keeps what is known of the bucket, and a step of it gives what the rules give. -/
theorem Keeps.perform (lossless : QuantityText.Lossless α) (h : s.Keeps now key known)
    {c : Command α} (hsteps : c.stepsOn key = true) :
    (s.perform position now c).2.Keeps now key (Known.after key now known c) ∧
      stepAnswer? key (c, (s.perform position now c).1) =
        (Known.outcome? key now known c).map fun o => .ok (.outcome o) := by
  -- whatever does not change the view keeps what is known
  have hkept : c.isRead = true ∨ c.key? ≠ some key → c ≠ .clear →
      (s.perform position now c).2.Keeps now key known :=
    fun hother hclear => h.congr (Instant.le_refl now) (visible?_perform position hother hclear)
  have hother : ∀ k, k ≠ key → some k ≠ some key := fun k hk heq => hk (Option.some.inj heq)
  cases c with
  | takeTokens k r =>
    by_cases hk : k = key
    · subst hk
      obtain ⟨hanswer, hwrites⟩ := takeTokens_of_finds (r := r) (h.finds r.now)
      have hreply : (s.perform position now (.takeTokens k r)).1 =
          .ok (.outcome (r.apply (Known.current now known)).2) :=
        congrArg (Except.map Answer.outcome) hanswer
      simp only [Known.after, Known.outcome?, stepAnswer?, if_true]
      exact ⟨hwrites.keeps lossless, congrArg some hreply⟩
    · simp only [Known.after, Known.outcome?, stepAnswer?, if_neg hk]
      exact ⟨hkept (.inr (hother k hk)) nofun, rfl⟩
  | delete k =>
    by_cases hk : k = key
    · subst hk
      have hgone : (s.delete now k).2.visible? now k = none := by
        rw [visible?_delete, if_pos rfl]
      simp only [Known.after, if_true]
      exact ⟨.nothing hgone, rfl⟩
    · simp only [Known.after, if_neg hk]
      exact ⟨hkept (.inr (hother k hk)) nofun, rfl⟩
  | clear => exact ⟨.nothing rfl, rfl⟩
  | _ =>
    refine ⟨hkept ?_ nofun, rfl⟩
    simpa only [Command.stepsOn, Bool.or_eq_true, decide_eq_true_eq] using hsteps

/-- While only admission steps write to a key, they give what the rules of buckets give. -/
theorem stepAnswers_of_keeps (lossless : QuantityText.Lossless α)
    {run : List (Instant × Command α)} (hkept : s.Keeps last key known)
    (hclock : run.Pairwise (·.1 ≤ ·.1)) (hlater : ∀ c ∈ run, last ≤ c.1)
    (hsteps : ∀ c ∈ run, c.2.stepsOn key = true) :
    (s.replies position run).filterMap (stepAnswer? key) =
      (outcomes key known run).map fun o => .ok (.outcome o) := by
  induction run generalizing s last known with
  | nil => rfl
  | cons first rest ih =>
    obtain ⟨now, c⟩ := first
    obtain ⟨hnext, hrest⟩ := List.pairwise_cons.mp hclock
    have hnow : s.Keeps now key known := hkept.congr (hlater _ List.mem_cons_self) rfl
    obtain ⟨hafter, hanswer⟩ := hnow.perform position lossless (hsteps _ List.mem_cons_self)
    have hgo := ih hafter hrest hnext fun c hc => hsteps c (List.mem_cons_of_mem _ hc)
    rw [replies_cons, List.filterMap_cons, hanswer, hgo, outcomes, List.map_append]
    cases Known.outcome? key now known c <;> rfl

/-- **A store refines the rules of buckets.**  A text under the key is in the way of an admission
step and nothing changes.  Otherwise the step finds a bucket or none, its outcome is that of the
rules of buckets, and it writes the new bucket down.  So, while the clock does not go back, a run in
which only admission steps write to a key that shows nothing at first gives the outcomes of the
rules of buckets, starting over whenever the key has expired or was deleted. -/
theorem takeTokens_refines (lossless : QuantityText.Lossless α) :
    (∀ (s : Store) (now : Instant) (key : String) (r : Bucket.Request α),
      (s.holdsText now key → s.takeTokens now key r = (.error (wrongType key), s)) ∧
      (¬ s.holdsText now key → ∃ current, s.Finds now key r.now current) ∧
      ∀ current, s.Finds now key r.now current →
        (s.takeTokens now key r).1 = .ok (r.apply current).2 ∧
          s.Writes now key r.ttlSeconds (r.apply current).1 (s.takeTokens now key r).2) ∧
    ∀ (s : Store) (key : String) (run : List (Instant × Command α)),
      (∀ c ∈ run.head?, s.visible? c.1 key = none) → run.Pairwise (·.1 ≤ ·.1) →
      (∀ c ∈ run, c.2.stepsOn key = true) →
        (s.replies position run).filterMap (stepAnswer? key) =
          (outcomes key none run).map fun o => .ok (.outcome o) := by
  refine ⟨fun s now key r => ⟨fun htext => takeTokens_of_text htext r,
    fun htext => ⟨_, finds_iff.mpr ⟨htext, rfl⟩⟩, fun _ hfinds => takeTokens_of_finds hfinds⟩, ?_⟩
  intro s key run hfirst hclock hsteps
  cases run with
  | nil => rfl
  | cons first rest =>
    refine stepAnswers_of_keeps position lossless (.nothing (hfirst first rfl)) hclock ?_ hsteps
    intro c hc
    rcases List.mem_cons.mp hc with rfl | hc
    · exact Instant.le_refl _
    · exact (List.pairwise_cons.mp hclock).1 c hc

end Runs

/-- Steps on a bucket of three tokens that is kept for five seconds: two in its first life, one
after it was deleted, and one at the moment at which that one has expired. -/
def threeLives : List (Instant × Command ℚ) :=
  let second (n : ℤ) : Instant := ⟨n * nanosPerSecond⟩
  [(second 0, .takeTokens "bucket" ⟨3, 1, 10, 2, 0, 5⟩),
    (second 0, .set "note" "text" none),
    (second 1, .hashGet "bucket" "tokens"),
    (second 1, .takeTokens "bucket" ⟨3, 1, 10, 2, 1, 5⟩),
    (second 1, .takeTokens "note" ⟨3, 1, 10, 2, 1, 5⟩),
    (second 2, .delete "bucket"),
    (second 2, .takeTokens "bucket" ⟨3, 1, 10, 2, 2, 5⟩),
    (second 6, .purge),
    (second 7, .takeTokens "bucket" ⟨3, 1, 10, 2, 7, 5⟩)]

/-- Only the second step is denied, since all others find no bucket. -/
theorem takeTokens_refines_threeLives :
    let steps := outcomes "bucket" none threeLives
    @QuantityText.Lossless ℚ Quantity.fractions ∧ threeLives.Pairwise (·.1 ≤ ·.1) ∧
      (∀ c ∈ threeLives, c.2.stepsOn "bucket" = true) ∧
      steps = [⟨true, 1⟩, ⟨false, 1⟩, ⟨true, 1⟩, ⟨true, 1⟩] ∧
      (@replies ℚ _ Quantity.fractions String.length empty threeLives).filterMap
          (stepAnswer? "bucket") = steps.map fun o => .ok (.outcome o) := by
  intro steps
  have hclock : threeLives.Pairwise (·.1 ≤ ·.1) := by decide
  have hsteps : ∀ c ∈ threeLives, c.2.stepsOn "bucket" = true := by decide
  refine ⟨Quantity.lossless_fractions, hclock, hsteps, by decide +kernel, ?_⟩
  exact (@takeTokens_refines ℚ Quantity.fractions _ String.length Quantity.lossless_fractions).2
    empty "bucket" threeLives (fun _ _ => rfl) hclock hsteps

end Bulwark.Store
