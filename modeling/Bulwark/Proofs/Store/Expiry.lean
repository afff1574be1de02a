import Bulwark.Proofs.Quantity.Fraction
import Bulwark.Proofs.Store.Scan

/-!
# Lazy expiry cannot be observed

A store drops an expired entry when something touches it, and keeps it until then.  No answer shows
when that is.  Every operation goes by what readers see (`GoesByView`): stores with the same view
answer alike and keep the same view.  A purge does not change the view, and time takes the same
entries away from stores that look alike; so purges can be put anywhere in a run, and a store that
is purged at every moment answers as one that never is (`purges_unobservable`).

Each operation meets an expired entry in its own way.  Readers drop it, `expire` leaves it where it
is, writers put a new entry over it, and scans and counts pass over it.  They all ask `Store.live?`
or `Store.writable` first, and those two are functions of the view.
-/

namespace Bulwark.Store

/-! ## The same view -/

/-- Stores that readers cannot tell apart at a moment. -/
def SameView (now : Instant) (s t : Store) : Prop :=
  ∀ key, s.visible? now key = t.visible? now key

namespace SameView

variable {s t u : Store} {now : Instant} {key : String}

theorem refl (now : Instant) (s : Store) : SameView now s s := fun _ => rfl

theorem trans (h : SameView now s t) (h' : SameView now t u) : SameView now s u :=
  fun key => (h key).trans (h' key)

/-- Time takes the same entries away from both. -/
theorem later {t' : Instant} (h : SameView now s t) (hle : now ≤ t') : SameView t' s t := by
  intro key
  rw [visible?_later hle, visible?_later hle, h key]

theorem live? (h : SameView now s t) (key : String) : s.live? now key = t.live? now key := by
  rw [live?_eq_map, live?_eq_map, h key]

theorem writable (h : SameView now s t) (key : String) :
    s.writable now key = t.writable now key := by
  unfold Store.writable
  rw [← visible?, ← visible?, h key]

theorem matches_iff (h : SameView now s t) (keyPrefix key : String) :
    s.Matches now keyPrefix key ↔ t.Matches now keyPrefix key := by
  unfold Matches
  rw [h key]

theorem put (h : SameView now s t) (key : String) (value : StoredValue)
    (deadline : Option Instant) : SameView now (s.put key value deadline) (t.put key value deadline) := by
  intro k
  rw [visible?_put, visible?_put, h k]

theorem erase (h : SameView now s t) (key : String) :
    SameView now ⟨s.entries.erase key⟩ ⟨t.entries.erase key⟩ := by
  intro k
  rw [visible?_erase, visible?_erase, h k]

theorem dropExpired (h : SameView now s t) (key : String) :
    SameView now (s.dropExpired now key) (t.dropExpired now key) := by
  intro k
  rw [visible?_dropExpired (Instant.le_refl now), visible?_dropExpired (Instant.le_refl now), h k]

theorem size (h : SameView now s t) : s.size now = t.size now := size_congr (h.matches_iff "")

end SameView

/-- After a purge there is nothing in the table but what can be seen. -/
theorem get?_purge (now : Instant) (s : Store) (key : String) :
    (s.purge now).2.entries.get? key = s.visible? now key :=
  s.entries.get?_filter _ key

/-- A purge drops nothing that can be seen. -/
theorem purge_sameView (now : Instant) (s : Store) : SameView now (s.purge now).2 s := by
  intro key
  rw [visible?, get?_purge, visible?, filter_isLive_later (Instant.le_refl now)]

/-! ## Operations go by the view -/

/-- An operation that does the same to stores that look alike. -/
structure GoesByView {β : Type} (now : Instant) (operation : Store → Result β) : Prop where
  congr : ∀ s t, SameView now s t →
    (operation s).1 = (operation t).1 ∧ SameView now (operation s).2 (operation t).2

section Operations

variable {α β γ : Type} (now : Instant) (key : String)

theorem get_goesByView : GoesByView now (·.get now key) := by
  constructor
  intro s t h
  unfold get
  rw [h.live? key]
  split
  · exact ⟨rfl, h.dropExpired key⟩
  · exact ⟨rfl, h⟩
  · exact ⟨rfl, h⟩

theorem set_goesByView (value : String) (ttl : Option Duration) :
    GoesByView now (·.set now key value ttl) :=
  ⟨fun _ _ h => ⟨rfl, h.put key _ _⟩⟩

theorem delete_goesByView : GoesByView now (·.delete now key) := by
  constructor
  intro s t h
  unfold delete
  rw [h.live? key]
  exact ⟨rfl, h.erase key⟩

theorem contains_goesByView : GoesByView now (·.contains now key) := by
  constructor
  intro s t h
  unfold contains
  rw [h.live? key]
  exact ⟨rfl, h.dropExpired key⟩

theorem expire_goesByView (ttl : Duration) : GoesByView now (·.expire now key ttl) := by
  constructor
  intro s t h
  unfold expire
  rw [h.live? key]
  split
  · exact ⟨rfl, h.put key _ _⟩
  · exact ⟨rfl, h⟩

theorem ttl_goesByView : GoesByView now (·.ttl now key) := by
  constructor
  intro s t h
  unfold ttl
  rw [← visible?, ← visible?, h key]
  split
  · exact ⟨rfl, h.dropExpired key⟩
  · split
    · exact ⟨rfl, h⟩
    · exact ⟨rfl, h⟩

theorem hashGet_goesByView (field : String) : GoesByView now (·.hashGet now key field) := by
  constructor
  intro s t h
  unfold hashGet
  rw [h.live? key]
  split
  · exact ⟨rfl, h.dropExpired key⟩
  · exact ⟨rfl, h⟩
  · exact ⟨rfl, h⟩

/-- The deadline that a write leaves alone is one that can be seen, so an expired one is gone. -/
theorem hashUpdate_goesByView (update : Table String → Except StoreError (β × Table String)) :
    GoesByView now (·.hashUpdate now key update) := by
  constructor
  intro s t h
  unfold hashUpdate
  rw [h.writable key]
  split
  · exact ⟨rfl, h⟩
  · split
    · exact ⟨rfl, h⟩
    · exact ⟨rfl, h.put key _ _⟩

theorem takeTokens_goesByView [Quantity α] [QuantityText α] (r : Bucket.Request α) :
    GoesByView now (·.takeTokens now key r) := by
  constructor
  intro s t h
  unfold takeTokens
  rw [h.writable key]
  split
  · exact ⟨rfl, h⟩
  · exact ⟨rfl, h.put key _ _⟩

theorem hashIncrementEach_goesByView (increments : List (String × ℤ)) :
    GoesByView now (·.hashIncrementEach now key increments) := by
  induction increments with
  | nil => exact ⟨fun _ _ h => ⟨rfl, h⟩⟩
  | cons increment rest ih =>
    obtain ⟨field, delta⟩ := increment
    constructor
    intro s t h
    have hfirst : (s.hashIncrement now key field delta).1 = (t.hashIncrement now key field delta).1 ∧
        SameView now (s.hashIncrement now key field delta).2
          (t.hashIncrement now key field delta).2 := (hashUpdate_goesByView now key _).congr s t h
    unfold hashIncrementEach
    generalize s.hashIncrement now key field delta = r at hfirst ⊢
    generalize t.hashIncrement now key field delta = r' at hfirst ⊢
    obtain ⟨answer, s'⟩ := r
    obtain ⟨answer', t'⟩ := r'
    obtain ⟨rfl, hview⟩ := hfirst
    cases answer with
    | error e => exact ⟨rfl, hview⟩
    | ok sum => exact ih.congr s' t' hview

theorem scan_goesByView (position : String → ℕ) (keyPrefix : String) (cursor count : ℕ) :
    GoesByView now (·.scan position now keyPrefix cursor count) :=
  ⟨fun _ _ h => ⟨scan_congr cursor (fun key _ => h.matches_iff keyPrefix key) count, h⟩⟩

theorem GoesByView.map {now : Instant} {operation : Store → Result β}
    (h : GoesByView now operation) (f : β → γ) :
    GoesByView now (fun s => Result.map f (operation s)) :=
  ⟨fun s t hview => ⟨congrArg (Except.map f) (h.congr s t hview).1, (h.congr s t hview).2⟩⟩

variable [Quantity α] [QuantityText α] (position : String → ℕ)

/-- Every command goes by the view, but for a purge, which tells how many entries it has dropped. -/
theorem perform_goesByView {c : Command α} (hc : c ≠ .purge) :
    GoesByView now (·.perform position now c) := by
  cases c with
  | get key => exact (get_goesByView now key).map _
  | set key value ttl => exact (set_goesByView now key value ttl).map _
  | delete key => exact (delete_goesByView now key).map _
  | contains key => exact (contains_goesByView now key).map _
  | hashGet key field => exact (hashGet_goesByView now key field).map _
  | hashSet key => exact (hashUpdate_goesByView now key _).map _
  | hashIncrement key => exact (hashUpdate_goesByView now key _).map _
  | hashIncrementAll key => exact (hashUpdate_goesByView now key _).map _
  | hashIncrementEach key => exact (hashIncrementEach_goesByView now key _).map _
  | expire key ttl => exact (expire_goesByView now key ttl).map _
  | ttl key => exact (ttl_goesByView now key).map _
  | scan keyPrefix cursor count =>
    exact (scan_goesByView now position keyPrefix cursor count).map _
  | takeTokens key request => exact (takeTokens_goesByView now key request).map _
  | size => exact ⟨fun s t h => ⟨congrArg (fun n => Except.ok (Answer.count n)) h.size, h⟩⟩
  | purge => exact absurd rfl hc
  | clear => exact ⟨fun _ _ _ => ⟨rfl, SameView.refl now empty⟩⟩

end Operations

/-! ## Runs -/

/-- A command that drops what has expired and does nothing else. -/
def Command.isPurge {α : Type} : Command α → Bool
  | .purge => true
  | _ => false

section Runs

variable {α : Type} [Quantity α] [QuantityText α] (position : String → ℕ)

/-- The commands of a run, each at its moment, with their answers. -/
def replies (s : Store) :
    List (Instant × Command α) → List (Command α × Except StoreError (Answer α))
  | [] => []
  | (now, c) :: rest =>
    let (answer, after) := s.perform position now c
    (c, answer) :: replies after rest

/-- The same for a store from which an entry is gone as soon as it has expired. -/
def eagerReplies (s : Store) :
    List (Instant × Command α) → List (Command α × Except StoreError (Answer α))
  | [] => []
  | (now, c) :: rest =>
    let (answer, after) := (s.purge now).2.perform position now c
    (c, answer) :: eagerReplies after rest

variable (now : Instant) (c : Command α) (rest : List (Instant × Command α))

theorem replies_cons (s : Store) :
    s.replies position ((now, c) :: rest) =
      (c, (s.perform position now c).1) :: (s.perform position now c).2.replies position rest := rfl

theorem eagerReplies_cons (s : Store) :
    s.eagerReplies position ((now, c) :: rest) =
      (c, ((s.purge now).2.perform position now c).1) ::
        ((s.purge now).2.perform position now c).2.eagerReplies position rest := rfl

variable {position} {s t : Store} {start : Instant} {run : List (Instant × Command α)}

/-- Purges may be left out of a run. -/
theorem replies_of_purges (hview : SameView start s t) (hclock : run.Pairwise (·.1 ≤ ·.1))
    (hlater : ∀ c ∈ run, start ≤ c.1) :
    (s.replies position run).filter (!·.1.isPurge) =
      t.replies position (run.filter (!·.2.isPurge)) := by
  induction run generalizing start s t with
  | nil => rfl
  | cons step rest ih =>
    obtain ⟨now, c⟩ := step
    obtain ⟨hfirst, hrest⟩ := List.pairwise_cons.mp hclock
    have hnow : SameView now s t := hview.later (hlater _ List.mem_cons_self)
    by_cases hpurge : c = .purge
    · subst hpurge
      exact ih ((purge_sameView now s).trans hnow) hrest hfirst
    · have hkept : (!c.isPurge) = true := by cases c <;> first | rfl | exact absurd rfl hpurge
      obtain ⟨hanswer, hafter⟩ := (perform_goesByView now position hpurge).congr s t hnow
      simp only [List.filter_cons, replies_cons, hkept, if_true]
      rw [hanswer, ih hafter hrest hfirst]

/-- A store that drops expired entries at once answers like one that looks the same. -/
theorem eagerReplies_eq (hview : SameView start s t) (hclock : run.Pairwise (·.1 ≤ ·.1))
    (hlater : ∀ c ∈ run, start ≤ c.1) (hpurge : ∀ c ∈ run, c.2 ≠ .purge) :
    s.eagerReplies position run = t.replies position run := by
  induction run generalizing start s t with
  | nil => rfl
  | cons step rest ih =>
    obtain ⟨now, c⟩ := step
    obtain ⟨hfirst, hrest⟩ := List.pairwise_cons.mp hclock
    have hnow : SameView now s t := hview.later (hlater _ List.mem_cons_self)
    obtain ⟨hanswer, hafter⟩ := (perform_goesByView now position (hpurge _ List.mem_cons_self)).congr
      _ _ ((purge_sameView now s).trans hnow)
    rw [eagerReplies_cons, replies_cons, hanswer,
      ih hafter hrest hfirst fun c hc => hpurge c (List.mem_cons_of_mem _ hc)]

/-- **Lazy expiry cannot be observed.**  While the clock does not go back, purges anywhere in a run
change no other answer, and a store from which entries go the moment they expire gives the same
answers to the run. -/
theorem purges_unobservable (hclock : run.Pairwise (·.1 ≤ ·.1)) :
    (s.replies position run).filter (!·.1.isPurge) =
        s.replies position (run.filter (!·.2.isPurge)) ∧
      s.eagerReplies position (run.filter (!·.2.isPurge)) =
        s.replies position (run.filter (!·.2.isPurge)) := by
  cases run with
  | nil => exact ⟨rfl, rfl⟩
  | cons step rest =>
    have hlater : ∀ c ∈ step :: rest, step.1 ≤ c.1 := by
      intro c hc
      rcases List.mem_cons.mp hc with rfl | hc
      · exact Instant.le_refl _
      · exact (List.pairwise_cons.mp hclock).1 c hc
    refine ⟨replies_of_purges (SameView.refl step.1 s) hclock hlater,
      eagerReplies_eq (SameView.refl step.1 s) (hclock.filter _)
        (fun c hc => hlater c (List.mem_of_mem_filter hc)) ?_⟩
    rintro c hc hpurge
    have hkept := List.of_mem_filter hc
    rw [hpurge] at hkept
    cases hkept

end Runs

/-- A text, a hash and a bucket that lapse after a second, and what is found under their keys
then, with a purge in between. -/
def lapsingRun : List (Instant × Command ℚ) :=
  let written : Instant := ⟨0⟩
  let lapsed : Instant := ⟨nanosPerSecond⟩
  [(written, .set "text" "old" (some (.ofSeconds 1))),
    (written, .hashSet "hash" "count" "5"),
    (written, .expire "hash" (.ofSeconds 1)),
    (written, .takeTokens "bucket" ⟨3, 1, 1, 2, 0, 1⟩),
    (written, .size),
    (lapsed, .hashIncrement "hash" "count" 2),
    (lapsed, .purge),
    (lapsed, .ttl "hash"),
    (lapsed, .takeTokens "bucket" ⟨3, 1, 10, 2, 1, 1⟩),
    (lapsed, .expire "text" (.ofSeconds 9)),
    (lapsed, .size)]

/-- The purge drops two entries that nothing has touched; the third one has been written over. -/
theorem purges_unobservable_lapsingRun :
    let replies := @replies ℚ _ Quantity.fractions String.length
    let kept := lapsingRun.filter (!·.2.isPurge)
    lapsingRun.Pairwise (·.1 ≤ ·.1) ∧
      ((replies empty lapsingRun).filter (·.1.isPurge)).map (·.2) = [.ok (.count 2)] ∧
      (replies empty kept).map (·.2) =
        [.ok .done, .ok .done, .ok (.flag true), .ok (.outcome ⟨true, 1⟩), .ok (.count 3),
          .ok (.sum 2), .ok (.lifetime .persistent), .ok (.outcome ⟨true, 1⟩), .ok (.flag false),
          .ok (.count 2)] ∧
      (replies empty lapsingRun).filter (!·.1.isPurge) = replies empty kept ∧
      @eagerReplies ℚ _ Quantity.fractions String.length empty kept = replies empty kept := by
  intro replies kept
  have hclock : lapsingRun.Pairwise (·.1 ≤ ·.1) := by decide
  obtain ⟨hlazy, heager⟩ := @purges_unobservable ℚ _ Quantity.fractions String.length empty
    lapsingRun hclock
  refine ⟨hclock, ?_, ?_, hlazy, heager⟩
  · decide +kernel
  · decide +kernel

end Bulwark.Store
