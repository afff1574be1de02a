import Bulwark.Proofs.Store.Batch
import Bulwark.Proofs.Store.Expiry

/-!
# Failed commands

A command fails on what is live under its key and on nothing else: on a value of the wrong kind, or
on a field that holds no count (`perform_error_iff`).  It looks for that before it changes anything,
so a command that fails has not been made, as far as any later answer tells
(`failures_unobservable`).

A write to a hash needs the hash first, and could put an empty one under its key before it looks for
errors.  That would leave no trace either (`perform_opened`): an empty hash is put only where
nothing is live, and there no error can follow, since it has no field that is not a count.

Increments one by one are several commands in one.  They stop at the first that fails, and those
before it have been made.
-/

namespace Bulwark.Store

/-! ## What a command fails on -/

section Faults

variable {α : Type}

/-- A command on a hash, so that a text is in its way. -/
def Command.needsHash : Command α → Bool
  | .hashGet _ _ => true
  | .hashSet _ _ _ => true
  | .hashIncrement _ _ _ => true
  | .hashIncrementAll _ _ => true
  | .hashIncrementEach _ increments => !increments.isEmpty
  | .takeTokens _ _ => true
  | _ => false

/-- A command on a text, so that a hash is in its way. -/
def Command.needsText : Command α → Bool
  | .get _ => true
  | _ => false

/-- What a command adds to the counts in fields. -/
def Command.increments : Command α → List (String × ℤ)
  | .hashIncrement _ field delta => [(field, delta)]
  | .hashIncrementAll _ increments => increments
  | .hashIncrementEach _ increments => increments
  | _ => []

/-- The error of a command, by the entry that is live under its key. -/
def Command.fault? (c : Command α) : Option StoredEntry → Option StoreError
  | none => none
  | some ⟨.text _, _⟩ => if c.needsHash then c.key?.map wrongType else none
  | some ⟨.hash fields, _⟩ =>
    if c.needsText then c.key?.map wrongType else Store.fault? fields c.increments

/-- A command that is made as a whole or not at all. -/
def Command.isSingle : Command α → Bool
  | .hashIncrementEach _ _ => false
  | _ => true

/-- A command that writes to the hash under a key, which it makes if there is none. -/
def Command.opens (key : String) : Command α → Bool
  | .hashSet k _ _ => k = key
  | .hashIncrement k _ _ => k = key
  | .hashIncrementAll k _ => k = key
  | .hashIncrementEach k increments => k = key && !increments.isEmpty
  | .takeTokens k _ => k = key
  | _ => false

end Faults

/-! ## Commands that fail -/

section Commands

variable {α : Type} {s : Store} {now : Instant} {key : String} {c : Command α} {e : StoreError}

/-- The one increment of a field fails as the field does. -/
theorem fault?_singleton (fields : Table String) (field : String) (delta : ℤ) :
    fault? fields [(field, delta)] = fieldFault? fields field := by
  unfold fault?
  rw [List.findSome?_singleton]

/-- An empty hash has no field that is not a count. -/
theorem fault?_empty (increments : List (String × ℤ)) : fault? .empty increments = none := by
  unfold fault?
  exact List.findSome?_eq_none_iff.mpr fun _ _ => rfl

variable (s now) in
/-- In the way of a command on a hash is a text, or what is in the fields that a write starts
from. -/
theorem fault?_of_needsHash (hkey : c.key? = some key) (hneeds : c.needsHash = true) :
    (s.writable now key = .error (wrongType key) ∧
      c.fault? (s.visible? now key) = some (wrongType key)) ∨
    ∃ fields deadline, s.writable now key = .ok (fields, deadline) ∧
      c.fault? (s.visible? now key) = fault? fields c.increments := by
  have htext : c.needsText = false := by
    cases c <;> first | rfl | cases hneeds
  unfold writable
  rw [← visible?]
  rcases s.visible? now key with _ | ⟨text | fields, deadline⟩
  · exact .inr ⟨.empty, none, rfl, (fault?_empty _).symm⟩
  · refine .inl ⟨rfl, ?_⟩
    simp only [Command.fault?, hneeds, hkey, if_true, Option.map_some]
  · refine .inr ⟨fields, deadline, rfl, ?_⟩
    simp only [Command.fault?, htext, Bool.false_eq_true, if_false]

/-- Nothing is in the way of a command that needs neither a text nor a hash. -/
theorem fault?_of_needs_nothing (hhash : c.needsHash = false) (htext : c.needsText = false)
    (hincrements : c.increments = []) (entry : Option StoredEntry) : c.fault? entry = none := by
  rcases entry with _ | ⟨text | fields, deadline⟩
  · rfl
  · simp only [Command.fault?, hhash, Bool.false_eq_true, if_false]
  · simp only [Command.fault?, htext, Bool.false_eq_true, if_false, hincrements]
    rfl

/-- A result is an error or an answer, as a fault says.  Where an operation is made as a whole, an
error comes with the store as it was. -/
def Settles {β : Type} (s : Store) (whole : Bool) (r : Result β) : Option StoreError → Prop
  | some e => r.1 = .error e ∧ (whole = true → r.2 = s)
  | none => ∃ answer, r.1 = .ok answer

theorem Settles.map {β γ : Type} {whole : Bool} {r : Result β} {fault : Option StoreError}
    (h : s.Settles whole r fault) (f : β → γ) : s.Settles whole (Result.map f r) fault := by
  unfold Result.map
  cases fault with
  | some e =>
    refine ⟨?_, h.2⟩
    rw [h.1]
    rfl
  | none =>
    obtain ⟨answer, hanswer⟩ := h
    refine ⟨f answer, ?_⟩
    rw [hanswer]
    rfl

theorem settles_get : s.Settles true (s.get now key)
    ((Command.get key : Command α).fault? (s.visible? now key)) := by
  unfold get
  rw [live?_eq_map]
  rcases s.visible? now key with _ | ⟨text | fields, deadline⟩
  · exact ⟨none, rfl⟩
  · exact ⟨some text, rfl⟩
  · exact ⟨rfl, fun _ => rfl⟩

theorem settles_hashGet (field : String) : s.Settles true (s.hashGet now key field)
    ((Command.hashGet key field : Command α).fault? (s.visible? now key)) := by
  unfold hashGet
  rw [live?_eq_map]
  rcases s.visible? now key with _ | ⟨text | fields, deadline⟩
  · exact ⟨none, rfl⟩
  · exact ⟨rfl, fun _ => rfl⟩
  · exact ⟨fields.get? field, rfl⟩

theorem settles_hashSet (field value : String) : s.Settles true (s.hashSet now key field value)
    ((Command.hashSet key field value : Command α).fault? (s.visible? now key)) := by
  unfold hashSet hashUpdate
  rcases fault?_of_needsHash (c := (Command.hashSet key field value : Command α)) s now rfl rfl with
    ⟨hwritable, hfault⟩ | ⟨fields, deadline, hwritable, hfault⟩
  · rw [hfault, hwritable]
    exact ⟨rfl, fun _ => rfl⟩
  · rw [hfault, hwritable]
    exact ⟨(), rfl⟩

theorem settles_hashIncrement (field : String) (delta : ℤ) :
    s.Settles true (s.hashIncrement now key field delta)
      ((Command.hashIncrement key field delta : Command α).fault? (s.visible? now key)) := by
  rcases fault?_of_needsHash (c := (Command.hashIncrement key field delta : Command α)) s now
    rfl rfl with ⟨hwritable, hfault⟩ | ⟨fields, deadline, hwritable, hfault⟩
  · rw [hfault]
    unfold hashIncrement hashUpdate
    rw [hwritable]
    exact ⟨rfl, fun _ => rfl⟩
  · rw [hfault, hashIncrement_eq hwritable (field, delta), Command.increments, fault?_singleton]
    cases fieldFault? fields field with
    | some e => exact ⟨rfl, fun _ => rfl⟩
    | none => exact ⟨_, rfl⟩

theorem settles_hashIncrementAll (increments : List (String × ℤ)) :
    s.Settles true (s.hashIncrementAll now key increments)
      ((Command.hashIncrementAll key increments : Command α).fault? (s.visible? now key)) := by
  rcases fault?_of_needsHash (c := (Command.hashIncrementAll key increments : Command α)) s now
    rfl rfl with ⟨hwritable, hfault⟩ | ⟨fields, deadline, hwritable, hfault⟩
  · rw [hfault]
    unfold hashIncrementAll hashUpdate
    rw [hwritable]
    exact ⟨rfl, fun _ => rfl⟩
  · rw [hfault, hashIncrementAll_eq hwritable, Command.increments]
    cases fault? fields increments with
    | some e => exact ⟨rfl, fun _ => rfl⟩
    | none => exact ⟨(), rfl⟩

/-- Increments one by one fail on what they fail on at once, but they are not made as a whole. -/
theorem settles_hashIncrementEach (increments : List (String × ℤ)) :
    s.Settles false (s.hashIncrementEach now key increments)
      ((Command.hashIncrementEach key increments : Command α).fault? (s.visible? now key)) := by
  by_cases hnil : increments = []
  · subst hnil
    rcases s.visible? now key with _ | ⟨text | fields, deadline⟩ <;> exact ⟨(), rfl⟩
  · have hneeds : (Command.hashIncrementEach key increments : Command α).needsHash = true := by
      simpa [Command.needsHash] using hnil
    rcases fault?_of_needsHash s now rfl hneeds with
      ⟨hwritable, hfault⟩ | ⟨fields, deadline, hwritable, hfault⟩
    · rw [hfault]
      exact ⟨(increments_of_writable_error hwritable increments).2 hnil, nofun⟩
    · have heach := hashIncrementEach_eq hwritable increments hnil
      rw [hfault, Command.increments]
      cases hfields : fault? fields increments with
      | some e =>
        rw [hfields] at heach
        exact ⟨heach, nofun⟩
      | none =>
        rw [hfields] at heach
        exact ⟨(), heach.1⟩

variable [Quantity α] [QuantityText α]

theorem settles_takeTokens (r : Bucket.Request α) : s.Settles true (s.takeTokens now key r)
    ((Command.takeTokens key r).fault? (s.visible? now key)) := by
  unfold takeTokens
  rcases fault?_of_needsHash (c := Command.takeTokens key r) s now rfl rfl with
    ⟨hwritable, hfault⟩ | ⟨fields, deadline, hwritable, hfault⟩
  · rw [hfault, hwritable]
    exact ⟨rfl, fun _ => rfl⟩
  · rw [hfault, hwritable]
    exact ⟨_, rfl⟩

variable (position : String → ℕ)

variable (s now) in
/-- What becomes of a command on a key is decided by the entry that is live there. -/
theorem perform_settles (hkey : c.key? = some key) :
    s.Settles c.isSingle (s.perform position now c) (c.fault? (s.visible? now key)) := by
  -- where nothing can be in the way, it is enough that there is an answer
  have hanswers : c.needsHash = false → c.needsText = false → c.increments = [] →
      (∃ answer, (s.perform position now c).1 = .ok answer) →
        s.Settles c.isSingle (s.perform position now c) (c.fault? (s.visible? now key)) := by
    intro hhash htext hincrements h
    rw [fault?_of_needs_nothing hhash htext hincrements]
    exact h
  cases c with
  | get => cases hkey; exact settles_get.map _
  | hashGet => cases hkey; exact (settles_hashGet _).map _
  | hashSet => cases hkey; exact (settles_hashSet _ _).map _
  | hashIncrement => cases hkey; exact (settles_hashIncrement _ _).map _
  | hashIncrementAll => cases hkey; exact (settles_hashIncrementAll _).map _
  | hashIncrementEach => cases hkey; exact (settles_hashIncrementEach _).map _
  | takeTokens => cases hkey; exact (settles_takeTokens _).map _
  | set => exact hanswers rfl rfl rfl ⟨_, rfl⟩
  | delete => exact hanswers rfl rfl rfl ⟨_, rfl⟩
  | contains => exact hanswers rfl rfl rfl ⟨_, rfl⟩
  | expire k ttl =>
    refine hanswers rfl rfl rfl ?_
    show ∃ answer, Except.map _ (s.expire now k ttl).1 = _
    unfold expire
    split <;> exact ⟨_, rfl⟩
  | ttl k =>
    refine hanswers rfl rfl rfl ⟨.lifetime (ttlAnswer now (s.visible? now k)), ?_⟩
    show Except.map _ (s.ttl now k).1 = _
    rw [ttl_answer]
    rfl
  | scan => cases hkey
  | size => cases hkey
  | purge => cases hkey
  | clear => cases hkey

variable (s now) in
/-- A command about no key always answers. -/
theorem perform_ok_of_key?_eq_none (hkey : c.key? = none) :
    ∃ answer, (s.perform position now c).1 = .ok answer := by
  cases c with
  | scan => exact ⟨_, rfl⟩
  | size => exact ⟨_, rfl⟩
  | purge => exact ⟨_, rfl⟩
  | clear => exact ⟨_, rfl⟩
  | _ => cases hkey

/-- A command fails on a fault in what is live under its key, and on nothing else. -/
theorem perform_error_iff : (s.perform position now c).1 = .error e ↔
    ∃ key, c.key? = some key ∧ c.fault? (s.visible? now key) = some e := by
  constructor
  · intro herror
    cases hkey : c.key? with
    | none =>
      obtain ⟨answer, hok⟩ := perform_ok_of_key?_eq_none s now position hkey
      cases herror.symm.trans hok
    | some key =>
      have hsettles := perform_settles s now position hkey
      refine ⟨key, rfl, ?_⟩
      cases hfault : c.fault? (s.visible? now key) with
      | none =>
        rw [hfault] at hsettles
        obtain ⟨answer, hok⟩ := hsettles
        cases herror.symm.trans hok
      | some e' =>
        rw [hfault] at hsettles
        rw [Except.error.inj (herror.symm.trans hsettles.1)]
  · rintro ⟨key, hkey, hfault⟩
    have hsettles := perform_settles s now position hkey
    rw [hfault] at hsettles
    exact hsettles.1

/-- A command that is made as a whole leaves the store as it was when it fails. -/
theorem perform_of_error (herror : (s.perform position now c).1 = .error e)
    (hsingle : c.isSingle = true) : (s.perform position now c).2 = s := by
  obtain ⟨key, hkey, hfault⟩ := (perform_error_iff position).mp herror
  have hsettles := perform_settles s now position hkey
  rw [hfault] at hsettles
  exact hsettles.2 hsingle

end Commands

/-! ## Hashes made first -/

section Opening

variable {α : Type} {s : Store} {now : Instant} {key : String}

/-- A store in which a hash can be written to under a key: where nothing is live, an empty one has
been put, without a deadline. -/
def opened (s : Store) (now : Instant) (key : String) : Store :=
  match s.visible? now key with
  | none => s.put key (.hash .empty) none
  | some _ => s

/-- A write starts from the same, whether or not its hash was made first. -/
theorem writable_opened : (s.opened now key).writable now key = s.writable now key := by
  unfold opened
  cases h : s.visible? now key with
  | some e => rfl
  | none =>
    have hmade : s.writable now key = .ok (.empty, none) :=
      writable_eq_ok_iff.mpr (.inr ⟨h, rfl, rfl⟩)
    rw [writable_put hmade, hmade]

/-- An entry is put over the hash that was made. -/
theorem put_opened (value : StoredValue) (deadline : Option Instant) :
    (s.opened now key).put key value deadline = s.put key value deadline := by
  unfold opened
  cases s.visible? now key with
  | some e => rfl
  | none => exact congrArg Store.mk (s.entries.insert_insert key _ _)

/-- Where a write fails, no hash was made. -/
theorem opened_of_writable_error {e : StoreError} (h : s.writable now key = .error e) :
    s.opened now key = s := by
  unfold opened
  cases hvisible : s.visible? now key with
  | some e => rfl
  | none =>
    rw [writable_eq_ok_iff.mpr (.inr ⟨hvisible, rfl, rfl⟩)] at h
    cases h

/-- It makes no difference to a write if its hash is made first, as long as it does not fail on an
empty hash. -/
theorem hashUpdate_opened {β : Type} {update : Table String → Except StoreError (β × Table String)}
    (hempty : ∀ e, update .empty ≠ .error e) :
    (s.opened now key).hashUpdate now key update = s.hashUpdate now key update := by
  unfold hashUpdate
  rw [writable_opened]
  cases hwritable : s.writable now key with
  | error e => rw [opened_of_writable_error hwritable]
  | ok start =>
    obtain ⟨fields, deadline⟩ := start
    dsimp only
    cases hupdate : update fields with
    | ok result => dsimp only; rw [put_opened]
    | error e =>
      -- the fields are not those of an empty hash, so there was a hash
      dsimp only
      rcases writable_eq_ok_iff.mp hwritable with hvisible | ⟨_, rfl, _⟩
      · unfold opened
        rw [hvisible]
      · exact absurd hupdate (hempty e)

theorem hashIncrement_opened (field : String) (delta : ℤ) :
    (s.opened now key).hashIncrement now key field delta = s.hashIncrement now key field delta :=
  hashUpdate_opened nofun

variable [Quantity α] [QuantityText α] (position : String → ℕ)

/-- A write to a hash does the same whether or not its hash was made first, also where it fails. -/
theorem perform_opened {c : Command α} (hopens : c.opens key = true) :
    (s.opened now key).perform position now c = s.perform position now c := by
  cases c with
  | hashSet k field value =>
    obtain rfl : k = key := of_decide_eq_true hopens
    exact congrArg (Result.map _) (hashUpdate_opened nofun)
  | hashIncrement k field delta =>
    obtain rfl : k = key := of_decide_eq_true hopens
    exact congrArg (Result.map _) (hashIncrement_opened field delta)
  | hashIncrementAll k increments =>
    obtain rfl : k = key := of_decide_eq_true hopens
    refine congrArg (Result.map _) (hashUpdate_opened fun e => ?_)
    rw [mapM_counters, fault?_empty]
    nofun
  | hashIncrementEach k increments =>
    obtain ⟨hk, hne⟩ := Bool.and_eq_true_iff.mp hopens
    obtain rfl : k = key := of_decide_eq_true hk
    cases increments with
    | nil => cases hne
    | cons i rest =>
      refine congrArg (Result.map _) ?_
      unfold hashIncrementEach
      rw [hashIncrement_opened]
  | takeTokens k r =>
    obtain rfl : k = key := of_decide_eq_true hopens
    refine congrArg (Result.map _) ?_
    unfold takeTokens
    rw [writable_opened]
    cases hwritable : s.writable now k with
    | error e => rw [opened_of_writable_error hwritable]
    | ok start => dsimp only; rw [put_opened]
  | _ => cases hopens

end Opening

/-! ## All or nothing -/

section Atomicity

variable {α : Type} [Quantity α] [QuantityText α] (position : String → ℕ)

/-- **Store operations are all or nothing.**  A command that fails, unless it is several in one,
leaves a store that answers every later run as it would have without it; and it is the same if the
hash that it was to write to is made first.  A command about one key leaves every other entry as it
is.  It fails exactly on a fault in the entry that is live under its key, so where nothing is live
it has an answer. -/
theorem failures_unobservable (s : Store) (now : Instant) (c : Command α) :
    (∀ e, (s.perform position now c).1 = .error e → c.isSingle = true →
      ∀ run : List (Instant × Command α),
        (s.perform position now c).2.replies position run = s.replies position run) ∧
    (∀ key, c.opens key = true →
      (s.opened now key).perform position now c = s.perform position now c) ∧
    (∀ key, c.key? = some key →
      (∀ k, k ≠ key →
        (s.perform position now c).2.entries.get? k = s.entries.get? k) ∧
      (∀ e, (s.perform position now c).1 = .error e ↔
        ∃ entry, s.visible? now key = some entry ∧ c.fault? (some entry) = some e) ∧
      (s.visible? now key = none → ∃ answer, (s.perform position now c).1 = .ok answer)) ∧
    (c.key? = none → ∃ answer, (s.perform position now c).1 = .ok answer) := by
  refine ⟨fun e herror hsingle run => ?_, fun key hopens => perform_opened position hopens,
    fun key hkey => ⟨fun k hk => (perform_actsOn now key position hkey).frame s k hk, fun e => ?_,
      fun hmissing => ?_⟩, perform_ok_of_key?_eq_none s now position⟩
  · rw [perform_of_error position herror hsingle]
  · rw [perform_error_iff]
    constructor
    · rintro ⟨k, hk, hfault⟩
      obtain rfl := Option.some.inj (hkey.symm.trans hk)
      cases hvisible : s.visible? now key with
      | none =>
        rw [hvisible] at hfault
        cases hfault
      | some entry => exact ⟨entry, rfl, hvisible ▸ hfault⟩
    · rintro ⟨entry, hvisible, hfault⟩
      exact ⟨key, hkey, hvisible ▸ hfault⟩
  · have hsettles := perform_settles s now position hkey
    rw [hmissing] at hsettles
    exact hsettles

end Atomicity

/-- A hash of a count and a word that lapses after five seconds, a text that has lapsed after one,
and a text that stays. -/
def mixedStore : Store :=
  ((empty.put "stats" (.hash ((Table.empty.insert "total" "5").insert "note" "x"))
      (some ⟨5 * nanosPerSecond⟩)).put "old" (.text "t") (some ⟨nanosPerSecond⟩)).put
    "plan" (.text "t") none

/-- Increments of which the last is of the word, and an increment under the lapsed text. -/
theorem failures_unobservable_mixedStore :
    let now : Instant := ⟨2 * nanosPerSecond⟩
    let perform := @perform ℚ _ Quantity.fractions String.length now mixedStore
    let replies := @replies ℚ _ Quantity.fractions String.length
    let all : Command ℚ := .hashIncrementAll "stats" [("total", 1), ("note", 2)]
    let once : Command ℚ := .hashIncrement "old" "total" 1
    let after : List (Instant × Command ℚ) :=
      [(now, .hashGet "stats" "total"), (now, .ttl "stats"), (now, .size)]
    (perform all).1 = .error (.protocol "hash field 'note' is not an integer") ∧
      all.isSingle = true ∧ all.opens "stats" = true ∧ all.key? = some "stats" ∧
      (∀ run, replies (perform all).2 run = replies mixedStore run) ∧
      (replies (perform all).2 after).map (·.2) =
        [.ok (.text (some "5")), .ok (.lifetime (.expires (.ofSeconds 3))), .ok (.count 2)] ∧
      once.key? = some "old" ∧ mixedStore.visible? now "old" = none ∧
      (perform once).1 = .ok (.sum 1) ∧ ∃ answer, (perform once).1 = .ok answer := by
  intro now perform replies all once after
  have herror : (perform all).1 = .error (.protocol "hash field 'note' is not an integer") := by
    decide +kernel
  have hmissing : mixedStore.visible? now "old" = none := by rfl
  have hall := @failures_unobservable ℚ _ Quantity.fractions String.length mixedStore now all
  have honce := @failures_unobservable ℚ _ Quantity.fractions String.length mixedStore now once
  exact ⟨herror, rfl, by decide, rfl, hall.1 _ herror rfl, by decide +kernel, rfl, hmissing,
    by decide +kernel, (honce.2.2.1 "old" rfl).2.2 hmissing⟩

/-- One by one, the count has been added to before the word is found. -/
example : ((mixedStore.hashIncrementEach ⟨0⟩ "stats" [("total", 1), ("note", 2)]).2.hashGet ⟨0⟩
    "stats" "total").1 = .ok (some "6") := by decide

end Bulwark.Store
