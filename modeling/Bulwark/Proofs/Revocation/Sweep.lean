import Bulwark.Proofs.Halt
import Bulwark.Proofs.Revocation.Page
import Bulwark.Proofs.Revocation.Sequence

/-!
# Sweeps

A sweep walks over the keys with the prefix, page by page, and deletes what is stale: entries that
cannot be read, and entries that have lapsed under a key without a deadline.  It deletes from the
store that it is walking over, but only what it has passed, so it meets every key as if nothing had
been deleted (`callsFrom_congr`).  All its store calls can be told beforehand (`sweepCalls`), and a
sweep makes them in their order, up to one that fails (`sweep_follows`).

The keys that are deleted are those whose entries are stale (`mem_sweepCalls_iff`), so a whole sweep
leaves nothing for the next one, and no lookup that can read its entry notices (`sweep_exact`).
-/

namespace Bulwark.Blacklist

/-! ## Stale entries -/

/-- An entry is stale if it cannot be read, or has lapsed under a key without a deadline. -/
def staleEntry (now : Instant) : StoredEntry → Bool
  | ⟨.hash _, _⟩ => false
  | ⟨.text text, deadline⟩ => match BlacklistEntry.read? text with
    | none => true
    | some entry => entry.isExpiredAt now.date && deadline.isNone

/-- The store calls by which a sweep looks at an entry. -/
def looks (now : Instant) : StoredEntry → List (Option String)
  | ⟨.hash _, _⟩ => [none]
  | ⟨.text text, _⟩ => match BlacklistEntry.read? text with
    | none => [none]
    | some entry => if entry.isExpiredAt now.date then [none, none] else [none]

/-- The store calls of a sweep for a key: the looks at its entry, and the deletion if that is
stale. -/
def callsFor (now : Instant) (key : String) (e : StoredEntry) : List (Option String) :=
  looks now e ++ if staleEntry now e then [some key] else []

section Keys

variable {s : Session} {now : Instant} {keyPrefix key : String} {e : StoredEntry}

theorem reduceOption_looks : (looks now e).reduceOption = [] := by
  obtain ⟨text | fields, deadline⟩ := e
  · unfold looks
    dsimp only
    split
    · rfl
    · split <;> rfl
  · rfl

theorem reduceOption_callsFor :
    (callsFor now key e).reduceOption = if staleEntry now e then [key] else [] := by
  unfold callsFor
  rw [List.reduceOption_append, reduceOption_looks, List.nil_append]
  split <;> rfl

/-- Reading a hash as a text fails. -/
theorem get_follows_of_hash {β : Type} {fields : Table String} {deadline : Option Instant} {v : β}
    {k : Except StoreError (Option String) → Action (Except StoreError β)}
    (hstart : Text.startsWith keyPrefix key = true)
    (hvisible : s.gate.store.visible? now key = some ⟨.hash fields, deadline⟩)
    (herror : ∀ e, k (.error e) = pure (.error e)) :
    Ends (callStore (·.get now key) >>= k) s (Follows keyPrefix now s [none] v) := by
  refine Ends.bind (Ends.callStore_gate (fun e hrefusal => ?_) fun _ => ?_)
  · rw [herror]
    exact Ends.pure (.refused (.inl hrefusal))
  · rw [Store.get_of_hash hvisible, herror, ← Gate.next_store]
    exact Ends.pure (.refused (.inr ⟨key, fields, deadline, hstart, hvisible, rfl⟩))

/-- Looking at an entry tells whether it is stale. -/
theorem isStale_follows (hstart : Text.startsWith keyPrefix key = true)
    (hvisible : s.gate.store.visible? now key = some e) :
    Ends (isStale now now.date key) s
      (Follows keyPrefix now s (looks now e) (staleEntry now e)) := by
  obtain ⟨text | fields, deadline⟩ := e
  · have hget : Ends (callStore (·.get now key)) s (Follows keyPrefix now s [none] (some text)) :=
      follows_callStore (Store.get_of_text hvisible)
    unfold isStale
    cases hread : BlacklistEntry.read? text with
    | none =>
      have hlooks : looks now ⟨.text text, deadline⟩ = [none] := by simp [looks, hread]
      have hstale : staleEntry now ⟨.text text, deadline⟩ = true := by simp [staleEntry, hread]
      rw [hlooks, hstale]
      refine Follows.map hget ?_ ?_
      · exact fun _ => rfl
      · simp only [hread]
    | some entry =>
      by_cases hexpired : entry.isExpiredAt now.date = true
      · have hlooks : looks now ⟨.text text, deadline⟩ = [none] ++ [none] := by
          simp [looks, hread, hexpired]
        have hstale : staleEntry now ⟨.text text, deadline⟩ = deadline.isNone := by
          simp [staleEntry, hread, hexpired]
        set t := s.after now [none] with ht
        have hkept : t.gate.store.visible? now key = some ⟨.text text, deadline⟩ := hvisible
        have httl : Ends (callStore (·.ttl now key)) t (Follows keyPrefix now t [none]
            (Store.ttlAnswer now (some ⟨.text text, deadline⟩))) :=
          follows_callStore (Store.ttl_of_visible hkept)
        rw [hlooks, hstale]
        refine Follows.bind hget ?_ ?_
        · exact fun _ => rfl
        · simp only [hread, hexpired, if_true]
          refine Follows.map httl ?_ ?_
          · exact fun _ => rfl
          · cases deadline <;> rfl
      · have hlooks : looks now ⟨.text text, deadline⟩ = [none] := by
          simp [looks, hread, hexpired]
        have hstale : staleEntry now ⟨.text text, deadline⟩ = false := by
          simp [staleEntry, hread, hexpired]
        rw [hlooks, hstale]
        refine Follows.map hget ?_ ?_
        · exact fun _ => rfl
        · simp only [hread, hexpired, Bool.false_eq_true, if_false]
  · exact get_follows_of_hash hstart hvisible fun _ => rfl

/-- A sweep of a key deletes it if its entry is stale, and counts that. -/
theorem sweepKey_follows (hstart : Text.startsWith keyPrefix key = true)
    (hvisible : s.gate.store.visible? now key = some e) :
    Ends (sweepKey now now.date key) s (Follows keyPrefix now s (callsFor now key e)
      (callsFor now key e).reduceOption.length) := by
  unfold sweepKey
  rw [reduceOption_callsFor]
  refine Follows.bind (isStale_follows hstart hvisible) (fun _ => rfl) ?_
  have hkept : (s.after now (looks now e)).gate.store = s.gate.store := by
    unfold Session.after
    rw [reduceOption_looks]
    rfl
  generalize s.after now (looks now e) = t at hkept ⊢
  cases hstale : staleEntry now e with
  | false => exact Ends.pure .nil
  | true =>
    have hlive : (t.gate.store.delete now key).1 = .ok true := by
      rw [Store.delete_answer, hkept, hvisible]
      rfl
    refine Ends.bind (Ends.callStore_gate (fun e hrefusal => ?_) fun hpass => ?_)
    · exact Ends.pure (.refused (.inl hrefusal))
    · rw [hlive]
      refine Ends.bind (Ends.count (Ends.pure ?_))
      have hsingle : Follows keyPrefix now t [some key] 1 (.ok 1) (t.after now [some key]) :=
        .single hpass
      rwa [Session.after_some] at hsingle

end Keys

/-! ## Pages -/

/-- The store calls of a sweep for keys. -/
def callsForAll (now : Instant) (s : Store) (keys : List String) : List (Option String) :=
  keys.flatMap fun key => (s.visible? now key).elim [] (callsFor now key)

section Pages

variable {s t : Session} {now : Instant} {keyPrefix key : String} {keys : List String}
  {store store' : Store}

theorem callsForAll_cons {e : StoredEntry} (h : store.visible? now key = some e)
    (keys : List String) :
    callsForAll now store (key :: keys) = callsFor now key e ++ callsForAll now store keys := by
  unfold callsForAll
  rw [List.flatMap_cons, h]
  rfl

/-- The calls for keys go by what can be seen there. -/
theorem callsForAll_congr
    (h : ∀ key ∈ keys, store.visible? now key = store'.visible? now key) :
    callsForAll now store keys = callsForAll now store' keys :=
  List.flatMap_congr fun key hkey => by rw [h key hkey]

/-- Deleted are the keys whose entries are stale. -/
theorem reduceOption_callsForAll : (callsForAll now store keys).reduceOption =
    keys.filter fun key => (store.visible? now key).any (staleEntry now) := by
  induction keys with
  | nil => rfl
  | cons key rest ih =>
    unfold callsForAll at ih ⊢
    rw [List.flatMap_cons, List.reduceOption_append, ih, List.filter_cons]
    cases store.visible? now key with
    | none => rfl
    | some e =>
      rw [Option.elim_some, reduceOption_callsFor, Option.any_some]
      split <;> rfl

/-- A sweep of keys that are asked for, live and different makes the calls for each of them, told
from the store before it. -/
theorem sweepKeys_follows (hnodup : keys.Nodup)
    (hkeys : ∀ key ∈ keys, s.gate.store.Matches now keyPrefix key) :
    Ends (sweepKeys now now.date keys) s (Follows keyPrefix now s
      (callsForAll now s.gate.store keys)
      (callsForAll now s.gate.store keys).reduceOption.length) := by
  induction keys generalizing s with
  | nil => exact Ends.pure .nil
  | cons key rest ih =>
    obtain ⟨hstart, hvisible⟩ := hkeys key List.mem_cons_self
    obtain ⟨e, he⟩ := Option.isSome_iff_exists.mp hvisible
    obtain ⟨hnew, hrest⟩ := List.nodup_cons.mp hnodup
    rw [sweepKeys, callsForAll_cons he, List.reduceOption_append, List.length_append]
    refine Follows.bind (sweepKey_follows hstart he) ?_ ?_
    · exact fun _ => rfl
    -- the other keys look as before
    set t := s.after now (callsFor now key e) with ht
    have hsame : ∀ k ∈ rest, t.gate.store.visible? now k = s.gate.store.visible? now k := by
      intro k hk
      have hother : k ∉ (callsFor now key e).reduceOption := by
        rw [reduceOption_callsFor]
        intro hmem
        split at hmem
        · exact hnew (List.mem_singleton.mp hmem ▸ hk)
        · exact List.not_mem_nil hmem
      rw [ht]
      exact Store.visible?_deleteAll.trans (if_neg hother)
    have hgo := ih (s := t) hrest fun k hk => by
      unfold Store.Matches
      rw [hsame k hk]
      exact hkeys k (List.mem_cons_of_mem _ hk)
    rw [callsForAll_congr hsame] at hgo
    refine Follows.map hgo ?_ ?_
    · exact fun _ => rfl
    · rfl

/-- The store calls of a sweep from a cursor on: one for each page, and those for its keys. -/
def callsFrom (keyPrefix : String) (now : Instant) (g : Gate) (fuel cursor : ℕ) :
    List (Option String) :=
  (g.store.pagesFrom g.position now keyPrefix pageSize fuel cursor).flatMap fun page =>
    none :: callsForAll now g.store page

/-- Deleted are the keys on the pages whose entries are stale. -/
theorem reduceOption_callsFrom {g : Gate} {fuel cursor : ℕ} :
    (callsFrom keyPrefix now g fuel cursor).reduceOption =
      (g.store.pagesFrom g.position now keyPrefix pageSize fuel cursor).flatten.filter
        fun key => (g.store.visible? now key).any (staleEntry now) := by
  unfold callsFrom
  induction g.store.pagesFrom g.position now keyPrefix pageSize fuel cursor with
  | nil => rfl
  | cons page rest ih =>
    rw [List.flatMap_cons, List.flatten_cons, List.filter_append, List.reduceOption_append, ih,
      List.reduceOption_cons_of_none, reduceOption_callsForAll]

/-- Nothing has happened from the cursor on, so there is still the same to be done. -/
theorem callsFrom_congr {g g' : Gate} {cursor : ℕ} (hposition : g'.position = g.position)
    (h : ∀ key, cursor ≤ g.position key →
      g'.store.visible? now key = g.store.visible? now key) (fuel : ℕ) :
    callsFrom keyPrefix now g' fuel cursor = callsFrom keyPrefix now g fuel cursor := by
  have hpages : g'.store.pagesFrom g.position now keyPrefix pageSize fuel cursor =
      g.store.pagesFrom g.position now keyPrefix pageSize fuel cursor := by
    refine Store.pagesFrom_congr (fun key hkey => ?_) fuel
    unfold Store.Matches
    rw [h key hkey]
  unfold callsFrom
  rw [hposition, hpages]
  refine List.flatMap_congr fun page hpage => congrArg (none :: ·) (callsForAll_congr ?_)
  intro key hkey
  exact h key (Store.matches_of_mem_pagesFrom (List.mem_flatten_of_mem hpage hkey)).2

/-- The calls for one page come first, and then those for the pages behind it. -/
theorem callsFrom_succ {g : Gate} {cursor next : ℕ}
    (hscan : (g.store.scan g.position now keyPrefix cursor pageSize).1 = .ok (next, keys))
    (fuel : ℕ) :
    callsFrom keyPrefix now g (fuel + 1) cursor = [none] ++ (callsForAll now g.store keys ++
      if next = 0 then [] else callsFrom keyPrefix now g fuel next) := by
  unfold callsFrom
  rw [Store.pagesFrom_succ hscan, List.flatMap_cons]
  split <;> rfl

/-- The calls for a page delete what is on it, so those for the pages behind it stay the same. -/
theorem callsFrom_after_page {cursor next : ℕ}
    (hpage : s.gate.store.IsPage now s.gate.position keyPrefix pageSize cursor next keys)
    (hmore : next ≠ 0) (fuel : ℕ) :
    callsFrom keyPrefix now
        ((s.after now [none]).after now (callsForAll now s.gate.store keys)).gate fuel next =
      callsFrom keyPrefix now s.gate fuel next := by
  refine callsFrom_congr ?_ (fun key hkey => ?_) fuel
  · exact ((s.after now [none]).gate.iterate_next_position _).trans
      (s.gate.iterate_next_position _)
  · have hother : key ∉ (callsForAll now s.gate.store keys).reduceOption := by
      rw [reduceOption_callsForAll]
      intro hmem
      have hbehind := ((hpage.mem_iff key).mp (List.mem_of_mem_filter hmem)).2.2 hmore
      omega
    exact Store.visible?_deleteAll.trans (if_neg hother)

/-- A sweep from a cursor on makes the calls for the pages that a walk over the store before it
shows. -/
theorem sweepFrom_follows (b : Blacklist) (fuel cursor : ℕ) :
    Ends (b.sweepFrom now now.date fuel cursor) s (Follows b.keyPrefix now s
      (callsFrom b.keyPrefix now s.gate fuel cursor)
      (callsFrom b.keyPrefix now s.gate fuel cursor).reduceOption.length) := by
  induction fuel generalizing s cursor with
  | zero => exact Ends.pure .nil
  | succ fuel ih =>
    obtain ⟨next, keys, hscan, hpage⟩ :=
      s.gate.store.scan_isPage s.gate.position now b.keyPrefix pageSize cursor
    have hcalls := callsFrom_succ (g := s.gate) hscan fuel
    have hdeleted := congrArg List.reduceOption hcalls
    rw [List.singleton_append, List.reduceOption_cons_of_none] at hdeleted
    have hahead := fun hmore => callsFrom_after_page hpage hmore fuel
    set forPage := callsForAll now s.gate.store keys with hforPage
    rw [sweepFrom_succ, hdeleted, hcalls]
    refine Follows.bind (v := (next, keys)) (follows_callStore (Prod.ext hscan rfl)) ?_ ?_
    · exact fun _ => rfl
    set t := s.after now [none] with ht
    have hsweep : Ends (sweepKeys now now.date keys) t
        (Follows b.keyPrefix now t forPage forPage.reduceOption.length) :=
      sweepKeys_follows hpage.nodup fun key hkey => ((hpage.mem_iff key).mp hkey).1
    by_cases hlast : next = 0
    · rw [if_pos hlast, List.append_nil]
      refine Follows.map hsweep ?_ ?_
      · exact fun _ => rfl
      · exact if_pos hlast
    · rw [if_neg hlast, List.reduceOption_append, List.length_append]
      refine Follows.bind hsweep ?_ ?_
      · exact fun _ => rfl
      have hgo := ih (s := t.after now forPage) next
      rw [hahead hlast] at hgo
      dsimp only
      rw [if_neg hlast]
      refine Follows.map hgo ?_ ?_
      · exact fun _ => rfl
      · rfl

end Pages

/-! ## Whole sweeps -/

/-- The store calls of a whole sweep. -/
def sweepCalls (keyPrefix : String) (now : Instant) (g : Gate) : List (Option String) :=
  callsFrom keyPrefix now g (g.store.entries.size + 1) 0

/-- A key with a prefix whose entry is stale. -/
def IsStaleUnder (keyPrefix : String) (now : Instant) (s : Store) (key : String) : Prop :=
  Text.startsWith keyPrefix key = true ∧
    ∃ e, s.visible? now key = some e ∧ staleEntry now e = true

section Sweeping

variable {b : Blacklist} {s t : Session} {now later : Instant} {keyPrefix key token : String}

/-- A whole sweep is to delete the keys whose entries are stale, each of them once. -/
theorem mem_sweepCalls_iff {g : Gate} : key ∈ (sweepCalls keyPrefix now g).reduceOption ↔
    IsStaleUnder keyPrefix now g.store key := by
  have hpages : key ∈ (g.store.pagesFrom g.position now keyPrefix pageSize
      (g.store.entries.size + 1) 0).flatten ↔ g.store.Matches now keyPrefix key :=
    Store.mem_pages_iff
  unfold sweepCalls IsStaleUnder
  rw [reduceOption_callsFrom, List.mem_filter, Option.any_eq_true, hpages, Store.Matches]
  constructor
  · rintro ⟨⟨hstart, -⟩, e, he, hstale⟩
    exact ⟨hstart, e, he, hstale⟩
  · rintro ⟨hstart, e, he, hstale⟩
    exact ⟨⟨hstart, by rw [he]; rfl⟩, e, he, hstale⟩

theorem nodup_sweepCalls (g : Gate) : (sweepCalls keyPrefix now g).reduceOption.Nodup := by
  unfold sweepCalls
  rw [reduceOption_callsFrom]
  exact Store.nodup_pages.filter _

/-- A sweep follows its calls, and then reports. -/
theorem sweep_follows (hnow : Timestamp.inRange now.second = true) :
    Ends (b.sweep now) s fun answer t => ∃ u,
      Follows b.keyPrefix now s (sweepCalls b.keyPrefix now s.gate)
        (sweepCalls b.keyPrefix now s.gate).reduceOption.length answer u ∧
      t.gate = u.gate ∧ t.counts = u.counts := by
  unfold sweep
  refine Ends.bind (Ends.ofClock_of_inRange hnow (Ends.bind (Ends.get
    (Ends.bind ((sweepFrom_follows b _ 0).mono ?_)))))
  intro answer u hfollows
  cases answer with
  | error e => exact Ends.pure ⟨u, hfollows, rfl, rfl⟩
  | ok swept =>
    dsimp only
    split
    · exact Ends.bind (Ends.report (Ends.pure ⟨u, hfollows, rfl, rfl⟩))
    · exact Ends.bind (Ends.report (Ends.pure ⟨u, hfollows, rfl, rfl⟩))

/-- A sweep that ends has dated the clock's reading. -/
theorem inRange_of_sweep {answer : Except StoreError ℕ}
    (h : b.sweep now s = .ok (answer, t)) : Timestamp.inRange now.second = true :=
  inRange_of_ofClock h

/-- So many store calls have passed the gate, the keys that they delete are gone and counted, and
the rest of the store is as it was. -/
structure Swept (now : Instant) (s : Session) (made : List (Option String)) (t : Session) :
    Prop where
  passed : s.passes made.length
  gone : ∀ key ∈ made.reduceOption, t.gate.store.entries.get? key = none
  kept : ∀ key, key ∉ made.reduceOption →
    t.gate.store.entries.get? key = s.gate.store.entries.get? key
  counts : t.counts =
    { s.counts with removed := s.counts.removed + UInt64.ofNat made.reduceOption.length }

/-- How a sweep ends: all calls are made and the deletions are counted, or the next call fails. -/
def EndsSweep (keyPrefix : String) (now : Instant) (s : Session) (made : List (Option String)) :
    Except StoreError ℕ → Prop
  | .ok n => made = sweepCalls keyPrefix now s.gate ∧ n = made.reduceOption.length
  | .error e => made ≠ sweepCalls keyPrefix now s.gate ∧
      ((Gate.next^[made.length] s.gate).refusal? = some e ∨ s.blocks keyPrefix now e)

theorem swept_of_after {made : List (Option String)} (h : s.passes made.length)
    (hstore : t.gate.store = Store.deleteAll now s.gate.store made.reduceOption)
    (hcounts : t.counts = (s.after now made).counts) : Swept now s made t where
  passed := h
  gone key hkey := by rw [hstore, Store.get?_deleteAll, if_pos hkey]
  kept key hkey := by rw [hstore, Store.get?_deleteAll, if_neg hkey]
  counts := hcounts

/-- What can be seen after a sweep could be seen before, and has not been deleted. -/
theorem Swept.of_visible {made : List (Option String)} {e : StoredEntry} (h : Swept now s made t)
    (hvisible : t.gate.store.visible? now key = some e) :
    key ∉ made.reduceOption ∧ s.gate.store.visible? now key = some e := by
  have hkey : key ∉ made.reduceOption := by
    intro hkey
    rw [Store.visible?_of_absent (h.gone key hkey)] at hvisible
    cases hvisible
  refine ⟨hkey, ?_⟩
  unfold Store.visible? at hvisible ⊢
  rw [← h.kept key hkey]
  exact hvisible

/-- A sweep makes some of its calls. -/
theorem sweep_makes (hnow : Timestamp.inRange now.second = true) :
    Ends (b.sweep now) s fun answer t => ∃ made,
      made <+: sweepCalls b.keyPrefix now s.gate ∧ Swept now s made t ∧
      EndsSweep b.keyPrefix now s made answer := by
  refine (sweep_follows hnow).mono fun answer t hsweep => ?_
  obtain ⟨u, hfollows, hgate, hcounts⟩ := hsweep
  cases hfollows with
  | done passed =>
    exact ⟨_, List.prefix_rfl, swept_of_after passed (congrArg _ hgate) hcounts, rfl, rfl⟩
  | @failed made call rest e split passed why =>
    refine ⟨made, split ▸ List.prefix_append _ _, swept_of_after passed ?_ hcounts, ?_, why⟩
    · rw [hgate]
      exact Gate.next_store _
    · intro heq
      have hlength := congrArg List.length (heq.trans split)
      rw [List.length_append, List.length_cons] at hlength
      omega

/-! ## Lookups after a sweep -/

/-- What a lookup answers, by what can be seen under the key. -/
def lookupAnswer (mode : FailureMode) (now : Instant) : Option StoredEntry → Except Halt Bool
  | none => .ok false
  | some ⟨.hash _, _⟩ => .ok mode.revokedOnError
  | some ⟨.text text, _⟩ => match BlacklistEntry.read? text with
    | none => .ok true
    | some entry => match Timestamp.ofInstant? now with
      | none => .error .undatable
      | some date => .ok !entry.isExpiredAt date

/-- A lookup goes by the gate and by what can be seen under the key. -/
theorem isRevoked_answer (b : Blacklist) (now : Instant) (token : String) (u : Session) :
    (b.isRevoked now token u).map Prod.fst =
      if Text.allBlank token = true then .ok false
      else match u.gate.refusal? with
        | some _ => .ok b.failureMode.revokedOnError
        | none => lookupAnswer b.failureMode now (u.gate.store.visible? now (b.key token)) := by
  by_cases hblank : Text.allBlank token = true
  · unfold isRevoked
    rw [if_pos hblank, if_pos hblank]
    rfl
  have hread : callStore (·.get now (b.key token)) u =
      .ok ((u.gate.call (·.get now (b.key token))).1,
        { u with gate := (u.gate.call (·.get now (b.key token))).2 }) := rfl
  unfold isRevoked
  rw [if_neg hblank, if_neg hblank, bind_of_ok hread, Gate.call_eq]
  cases u.gate.refusal? with
  | some e => rfl
  | none =>
    dsimp only
    rw [Store.get_answer]
    rcases u.gate.store.visible? now (b.key token) with _ | ⟨text | fields, deadline⟩
    · rfl
    · unfold lookupAnswer Store.textAnswer
      dsimp only
      cases hentry : BlacklistEntry.read? text with
      | none =>
        have hrevokes : revokes now text = pure true := by
          unfold revokes
          rw [hentry]
        rw [hrevokes]
        rfl
      | some entry =>
        have hrevokes : revokes now text =
            Timestamp.ofClock now >>= fun date => pure !entry.isExpiredAt date := by
          unfold revokes
          rw [hentry]
        rw [hrevokes]
        dsimp only
        unfold Timestamp.ofClock
        cases hdate : Timestamp.ofInstant? now with
        | none => rfl
        | some date => rfl
    · rfl

/-- A lookup that can read the entry does not notice a sweep: what is deleted has lapsed. -/
theorem lookupAnswer_swept {made : List (Option String)} (h : Swept now s made t)
    (hstale : ∀ k ∈ made.reduceOption, IsStaleUnder keyPrefix now s.gate.store k)
    (hread : ∀ text deadline, s.gate.store.visible? now key = some ⟨.text text, deadline⟩ →
      (BlacklistEntry.read? text).isSome = true)
    (hle : now ≤ later) (hlater : Timestamp.inRange later.second = true) (mode : FailureMode) :
    lookupAnswer mode later (t.gate.store.visible? later key) =
      lookupAnswer mode later (s.gate.store.visible? later key) := by
  by_cases hkey : key ∈ made.reduceOption
  · obtain ⟨-, e, hvisible, he⟩ := hstale key hkey
    rw [Store.visible?_of_absent (h.gone key hkey), Store.visible?_later hle, hvisible]
    obtain ⟨text | fields, deadline⟩ := e
    · obtain ⟨entry, hentry⟩ := Option.isSome_iff_exists.mp (hread text deadline hvisible)
      simp only [staleEntry, hentry, Bool.and_eq_true, Option.isNone_iff_eq_none] at he
      obtain ⟨hexpired, rfl⟩ := he
      have hdate : Timestamp.ofInstant? later = some later.date := if_pos hlater
      have hlive : (some ⟨.text text, none⟩ : Option StoredEntry).filter (·.isLive later) =
          some ⟨.text text, none⟩ := rfl
      rw [hlive]
      simp only [lookupAnswer, hentry, hdate, BlacklistEntry.isExpiredAt_of_le hle hexpired,
        Bool.not_true]
    · cases he
  · unfold Store.visible?
    rw [h.kept key hkey]

/-! ## What a sweep does -/

/-- Under a prefix there are no hashes. -/
def HoldsTexts (keyPrefix : String) (now : Instant) (s : Store) : Prop :=
  ∀ key, Text.startsWith keyPrefix key = true →
    ∀ fields deadline, s.visible? now key ≠ some ⟨.hash fields, deadline⟩

theorem not_blocks {e : StoreError} (h : HoldsTexts keyPrefix now s.gate.store) :
    ¬ s.blocks keyPrefix now e := by
  rintro ⟨key, fields, deadline, hstart, hvisible, -⟩
  exact h key hstart fields deadline hvisible

/-- Only keys whose entries are stale are deleted. -/
theorem staleUnder_of_mem {g : Gate} {made : List (Option String)}
    (hmade : made <+: sweepCalls keyPrefix now g) (hkey : key ∈ made.reduceOption) :
    IsStaleUnder keyPrefix now g.store key :=
  mem_sweepCalls_iff.mp ((hmade.sublist.filterMap id).subset hkey)

/-- Behind an open gate a sweep does not fail. -/
theorem EndsSweep.ok_of_isOpen {made : List (Option String)} {answer : Except StoreError ℕ}
    (h : EndsSweep keyPrefix now s made answer) (hopen : s.gate.IsOpen)
    (htexts : HoldsTexts keyPrefix now s.gate.store) : ∃ n, answer = .ok n := by
  cases answer with
  | ok n => exact ⟨n, rfl⟩
  | error e =>
    obtain ⟨-, hrefusal | hblocks⟩ := h
    · cases (hopen.iterate_next made.length).refusal?.symm.trans hrefusal
    · exact absurd hblocks (not_blocks htexts)

/-- Where nothing is stale, a sweep deletes nothing and counts nothing. -/
theorem sweep_of_none_stale (hnow : Timestamp.inRange now.second = true)
    (hnone : ∀ key, ¬ IsStaleUnder b.keyPrefix now s.gate.store key) :
    Ends (b.sweep now) s fun answer t =>
      (∀ key, t.gate.store.entries.get? key = s.gate.store.entries.get? key) ∧
      t.counts = s.counts ∧ (∀ n, answer = .ok n → n = 0) ∧
      (s.gate.IsOpen → HoldsTexts b.keyPrefix now s.gate.store → answer = .ok 0) := by
  refine (sweep_makes hnow).mono fun answer t hsweep => ?_
  obtain ⟨made, hmade, hswept, hends⟩ := hsweep
  have hnil : made.reduceOption = [] := by
    refine List.eq_nil_iff_forall_not_mem.mpr fun key hkey => ?_
    exact hnone key (staleUnder_of_mem hmade hkey)
  have hzero : ∀ n, answer = .ok n → n = 0 := by
    rintro n rfl
    rw [hends.2, hnil]
    rfl
  refine ⟨fun key => hswept.kept key (by rw [hnil]; exact List.not_mem_nil), ?_, hzero, ?_⟩
  · rw [hswept.counts, hnil]
    simp
  · intro hopen htexts
    obtain ⟨n, rfl⟩ := hends.ok_of_isOpen hopen htexts
    rw [hzero n rfl]

/-- **A sweep deletes the stale entries and nothing else.**  It ends, after some of the store calls
of a whole sweep, in their order.  The keys that these delete are gone and counted, all else in the
store is as it was, and lookups of tokens whose entries can be read do not notice it.  If no call
fails, all calls are made and the answer is the number of the deleted keys; else the next call has
been refused.  A whole sweep deletes each key with the prefix whose entry is stale, and no other; so
the next one at the same time finds nothing to delete. -/
theorem sweep_exact (hnow : Timestamp.inRange now.second = true)
    (htexts : HoldsTexts b.keyPrefix now s.gate.store) :
    (sweepCalls b.keyPrefix now s.gate).reduceOption.Nodup ∧
    (∀ key, key ∈ (sweepCalls b.keyPrefix now s.gate).reduceOption ↔
      IsStaleUnder b.keyPrefix now s.gate.store key) ∧
    ∃ answer t made, b.sweep now s = .ok (answer, t) ∧
      made <+: sweepCalls b.keyPrefix now s.gate ∧ Swept now s made t ∧
      (match answer with
      | .ok n => made = sweepCalls b.keyPrefix now s.gate ∧ n = made.reduceOption.length
      | .error e => made ≠ sweepCalls b.keyPrefix now s.gate ∧
          (Gate.next^[made.length] s.gate).refusal? = some e) ∧
      (s.gate.IsOpen → ∃ n, answer = .ok n) ∧
      (∀ token later, now ≤ later → Timestamp.inRange later.second = true →
        (∀ text deadline, s.gate.store.visible? now (b.key token) = some ⟨.text text, deadline⟩ →
          (BlacklistEntry.read? text).isSome = true) →
        ∀ u : Session, u.gate.store = t.gate.store →
          (b.isRevoked later token u).map Prod.fst =
            (b.isRevoked later token { u with
              gate := { u.gate with store := s.gate.store } }).map Prod.fst) ∧
      (∀ n, answer = .ok n → ∀ u : Session, u.gate.store = t.gate.store →
        ∃ again v, b.sweep now u = .ok (again, v) ∧
          (∀ key, v.gate.store.entries.get? key = u.gate.store.entries.get? key) ∧
          v.counts = u.counts ∧ (∀ m, again = .ok m → m = 0) ∧
          (u.gate.IsOpen → again = .ok 0)) := by
  refine ⟨nodup_sweepCalls _, fun key => mem_sweepCalls_iff, ?_⟩
  obtain ⟨answer, t, hsweep, made, hmade, hswept, hends⟩ := sweep_makes (b := b) (s := s) hnow
  have hstale : ∀ key ∈ made.reduceOption, IsStaleUnder b.keyPrefix now s.gate.store key :=
    fun key hkey => staleUnder_of_mem hmade hkey
  refine ⟨answer, t, made, hsweep, hmade, hswept, ?_,
    fun hopen => hends.ok_of_isOpen hopen htexts, ?_, ?_⟩
  · cases answer with
    | ok n => exact hends
    | error e => exact ⟨hends.1, hends.2.resolve_right (not_blocks htexts)⟩
  · intro token later hle hlater hread u hu
    rw [isRevoked_answer, isRevoked_answer]
    have hsame := lookupAnswer_swept hswept hstale hread hle hlater b.failureMode
    rw [← hu] at hsame
    rw [hsame]
    rfl
  · rintro n rfl u hu
    -- what is left after all calls was not stale before
    have hnone : ∀ key, ¬ IsStaleUnder b.keyPrefix now u.gate.store key := by
      rintro key ⟨hstart, e, hvisible, he⟩
      rw [hu] at hvisible
      obtain ⟨hkey, hbefore⟩ := hswept.of_visible hvisible
      rw [hends.1] at hkey
      exact hkey (mem_sweepCalls_iff.mpr ⟨hstart, e, hbefore, he⟩)
    have htexts' : HoldsTexts b.keyPrefix now u.gate.store := by
      intro key hstart fields deadline hvisible
      rw [hu] at hvisible
      exact htexts key hstart fields deadline (hswept.of_visible hvisible).2
    obtain ⟨again, v, hagain, hkept, hcounts, hzero, hopen⟩ := sweep_of_none_stale hnow hnone
    exact ⟨again, v, hagain, hkept, hcounts, hzero, fun h => hopen h htexts'⟩

end Sweeping

/-- Under the prefix an entry that cannot be read, one that has lapsed under a key for good, one
that has lapsed and is left to the store, and one that has not lapsed; beside them a hash. -/
def staleAndFresh : Store :=
  let entry (since : ℤ) : StoredValue :=
    .text (BlacklistEntry.of ⟨since * nanosPerSecond⟩ "stolen" 60).render
  ((((Store.empty.put "bl:broken" (.text "x") none).put "bl:lapsed" (entry 0) none).put
    "bl:leased" (entry 0) (some ⟨90 * nanosPerSecond⟩)).put "bl:fresh" (entry 30) none).put
    "bucket" (.hash .empty) none

theorem cases_staleAndFresh {now : Instant} {key : String} {e : StoredEntry}
    (h : staleAndFresh.visible? now key = some e) :
    (key, e) ∈ staleAndFresh.entries.entries :=
  (staleAndFresh.entries.mem_entries_iff key e).mpr (Store.visible?_eq_some_iff.mp h).1

theorem isStaleUnder_staleAndFresh {key : String} :
    IsStaleUnder "bl:" ⟨60 * nanosPerSecond⟩ staleAndFresh key ↔
      key ∈ ["bl:broken", "bl:lapsed"] := by
  have hstale : ∀ p ∈ staleAndFresh.entries.entries,
      staleEntry ⟨60 * nanosPerSecond⟩ p.2 = true → p.1 ∈ ["bl:broken", "bl:lapsed"] := by
    decide +kernel
  constructor
  · rintro ⟨-, e, hvisible, he⟩
    exact hstale (key, e) (cases_staleAndFresh hvisible) he
  · intro hkey
    simp only [List.mem_cons, List.not_mem_nil, or_false] at hkey
    rcases hkey with rfl | rfl <;> exact ⟨by decide, _, rfl, by decide +kernel⟩

theorem holdsTexts_staleAndFresh : HoldsTexts "bl:" ⟨60 * nanosPerSecond⟩ staleAndFresh := by
  have htext : ∀ p ∈ staleAndFresh.entries.entries, Text.startsWith "bl:" p.1 = true →
      (match p.2.value with | .text _ => true | .hash _ => false) = true := by
    decide +kernel
  intro key hstart fields deadline hvisible
  cases htext _ (cases_staleAndFresh hvisible) hstart

/-- The sweep of that store deletes two keys. -/
theorem sweep_exact_staleAndFresh :
    let now : Instant := ⟨60 * nanosPerSecond⟩
    let s : Session := ⟨.opened String.length staleAndFresh, .zero, []⟩
    Timestamp.inRange now.second = true ∧ HoldsTexts "bl:" now staleAndFresh ∧
    ∃ t, sweep ⟨"bl:", .failSafe⟩ now s = .ok (.ok 2, t) ∧ t.counts.removed = 2 ∧
      ∀ key, t.gate.store.entries.get? key =
        if key ∈ ["bl:broken", "bl:lapsed"] then none else staleAndFresh.entries.get? key := by
  intro now s
  have hnow : Timestamp.inRange now.second = true := by decide
  refine ⟨hnow, holdsTexts_staleAndFresh, ?_⟩
  obtain ⟨hnodup, hmem, answer, t, made, hsweep, -, hswept, hanswer, hopen, -⟩ :=
    sweep_exact (b := ⟨"bl:", .failSafe⟩) (s := s) hnow holdsTexts_staleAndFresh
  obtain ⟨n, rfl⟩ := hopen ⟨rfl, rfl⟩
  obtain ⟨rfl, hcount⟩ := hanswer
  have hkeys : ∀ key, key ∈ (sweepCalls "bl:" now s.gate).reduceOption ↔
      key ∈ ["bl:broken", "bl:lapsed"] :=
    fun key => (hmem key).trans isStaleUnder_staleAndFresh
  have htwo : (sweepCalls "bl:" now s.gate).reduceOption.length = 2 :=
    ((List.perm_ext_iff_of_nodup hnodup (by decide)).mpr hkeys).length_eq
  obtain rfl : n = 2 := hcount.trans htwo
  refine ⟨t, hsweep, ?_, fun key => ?_⟩
  · rw [hswept.counts, htwo]
    rfl
  · split
    · exact hswept.gone key ((hkeys key).mpr ‹_›)
    · exact hswept.kept key (mt (hkeys key).mp ‹_›)

end Bulwark.Blacklist
