import Mathlib.Data.Option.Basic
import Bulwark.Proofs.Time.Instant
import Bulwark.Store.Basic

/-!
# What readers of a store see

An expired entry may stay in the table of a store, so two tables can differ where no reader sees a
difference.  `Store.visible?` is the view that counts: the entry under a key, as long as it is live.

Each operation below is described by that view alone: what it answers, and what is visible under
every key from its moment on.  Reading changes nothing there, although it may drop an expired entry;
writing and deleting change one key.  Time only takes entries away (`visible?_later`).
-/

namespace Bulwark

/-- What is live is live at every earlier moment. -/
theorem StoredEntry.isLive_of_le {e : StoredEntry} {t u : Instant} (h : t ≤ u)
    (hu : e.isLive u = true) : e.isLive t = true := by
  unfold StoredEntry.isLive at hu ⊢
  cases hd : e.deadline with
  | none => rfl
  | some limit =>
    simp only [hd, decide_eq_true_eq] at hu ⊢
    rw [Instant.lt_def] at hu ⊢
    rw [Instant.le_def] at h
    omega

/-- A key is live until its time is over, even where no clock can show the end of it. -/
theorem StoredEntry.isLive_later?_iff {t u : Instant} {d : Duration} (ht : t.isHeld = true)
    (hu : u.isHeld = true) (value : StoredValue) :
    (⟨value, t.later? d⟩ : StoredEntry).isLive u = true ↔ u.nanos < t.nanos + d.nanos := by
  unfold StoredEntry.isLive
  cases h : t.later? d with
  | some limit => rw [decide_eq_true_eq, Instant.lt_def, (Instant.later?_eq_some_iff.mp h).1]
  | none => exact iff_of_true rfl (Instant.lt_of_later?_eq_none ht hu h)

namespace Store

/-- The entry that readers see under a key. -/
def visible? (s : Store) (now : Instant) (key : String) : Option StoredEntry :=
  (s.entries.get? key).filter (·.isLive now)

variable {s : Store} {now t : Instant} {key k : String}

theorem live?_eq_map : s.live? now key = (s.visible? now key).map (·.value) := rfl

theorem visible?_eq_some_iff {e : StoredEntry} :
    s.visible? now key = some e ↔ s.entries.get? key = some e ∧ e.isLive now = true := by
  rw [visible?, Option.filter_eq_some_iff]

theorem visible?_of_absent (h : s.entries.get? key = none) : s.visible? t key = none := by
  rw [visible?, h, Option.filter_none]

theorem visible?_of_dead {e : StoredEntry} (h : s.entries.get? key = some e)
    (hdead : ¬ e.isLive now = true) : s.visible? now key = none := by
  rw [visible?, h, Option.filter_some, if_neg hdead]

/-- What is live later is live now. -/
theorem filter_isLive_later (h : now ≤ t) (entry : Option StoredEntry) :
    (entry.filter (·.isLive now)).filter (·.isLive t) = entry.filter (·.isLive t) := by
  rw [Option.filter_filter]
  congr 1
  funext e
  cases ht : e.isLive t with
  | false => rw [Bool.and_false]
  | true => rw [StoredEntry.isLive_of_le h ht, Bool.and_true]

/-- What is visible later is what is visible now and still live then. -/
theorem visible?_later (h : now ≤ t) :
    s.visible? t key = (s.visible? now key).filter (·.isLive t) :=
  (filter_isLive_later h _).symm

theorem visible?_put (value : StoredValue) (deadline : Option Instant) :
    (s.put key value deadline).visible? t k =
      if k = key then (some ⟨value, deadline⟩ : Option StoredEntry).filter (·.isLive t)
      else s.visible? t k := by
  rw [visible?, put, Table.get?_insert]
  split <;> rfl

theorem visible?_erase :
    (⟨s.entries.erase key⟩ : Store).visible? t k = if k = key then none else s.visible? t k := by
  rw [visible?, Table.get?_erase]
  split <;> rfl

/-- Dropping an expired entry changes nothing that can be seen. -/
theorem visible?_dropExpired (h : now ≤ t) :
    (s.dropExpired now key).visible? t k = s.visible? t k := by
  unfold dropExpired
  cases he : s.entries.get? key with
  | none => rfl
  | some e =>
    by_cases hlive : e.isLive now = true
    · simp only [if_pos hlive]
    · simp only [if_neg hlive]
      rw [visible?_erase]
      by_cases hk : k = key
      · subst hk
        rw [if_pos rfl, visible?, he, Option.filter_some, if_neg]
        exact fun ht => hlive (StoredEntry.isLive_of_le h ht)
      · rw [if_neg hk]

/-! ## Reading -/

/-- The answer to a reading of a text, by what is visible under the key. -/
def textAnswer (key : String) : Option StoredEntry → Except StoreError (Option String)
  | none => .ok none
  | some ⟨.text text, _⟩ => .ok (some text)
  | some ⟨.hash _, _⟩ => .error (wrongType key)

theorem get_answer : (s.get now key).1 = textAnswer key (s.visible? now key) := by
  unfold get
  rw [live?_eq_map]
  rcases s.visible? now key with _ | ⟨_ | _, _⟩ <;> rfl

/-- Reading a text leaves the store as it is. -/
theorem get_of_text {text : String} {deadline : Option Instant}
    (h : s.visible? now key = some ⟨.text text, deadline⟩) :
    s.get now key = (.ok (some text), s) := by
  unfold get
  rw [live?_eq_map, h]
  rfl

theorem get_of_hash {fields : Table String} {deadline : Option Instant}
    (h : s.visible? now key = some ⟨.hash fields, deadline⟩) :
    s.get now key = (.error (wrongType key), s) := by
  unfold get
  rw [live?_eq_map, h]
  rfl

theorem visible?_get (h : now ≤ t) : (s.get now key).2.visible? t k = s.visible? t k := by
  unfold get
  split
  · exact visible?_dropExpired h
  · rfl
  · rfl

theorem contains_answer :
    (s.contains now key).1 = .ok (s.visible? now key).isSome := by
  show Except.ok (s.live? now key).isSome = _
  rw [live?_eq_map, Option.isSome_map]

/-- The answer to a reading of a field, by what is visible under the key. -/
def fieldAnswer (key field : String) : Option StoredEntry → Except StoreError (Option String)
  | none => .ok none
  | some ⟨.hash fields, _⟩ => .ok (fields.get? field)
  | some ⟨.text _, _⟩ => .error (wrongType key)

theorem hashGet_answer (field : String) :
    (s.hashGet now key field).1 = fieldAnswer key field (s.visible? now key) := by
  unfold hashGet
  rw [live?_eq_map]
  rcases s.visible? now key with _ | ⟨_ | _, _⟩ <;> rfl

/-- The answer to a question for the lifetime of a key, by what is visible under it. -/
def ttlAnswer (now : Instant) : Option StoredEntry → KeyTtl
  | none => .missing
  | some ⟨_, none⟩ => .persistent
  | some ⟨_, some limit⟩ => .expires (now.timeTo limit)

theorem ttl_answer : (s.ttl now key).1 = .ok (ttlAnswer now (s.visible? now key)) := by
  unfold ttl
  rw [← visible?]
  rcases s.visible? now key with _ | ⟨_, _ | _⟩ <;> rfl

/-- Asking for the lifetime of a live key leaves the store as it is. -/
theorem ttl_of_visible {e : StoredEntry} (h : s.visible? now key = some e) :
    s.ttl now key = (.ok (ttlAnswer now (some e)), s) := by
  unfold ttl
  rw [← visible?, h]
  obtain ⟨_, _ | _⟩ := e <;> rfl

theorem visible?_ttl (h : now ≤ t) : (s.ttl now key).2.visible? t k = s.visible? t k := by
  unfold ttl
  split
  · exact visible?_dropExpired h
  · split <;> rfl

/-! ## Writing and deleting -/

theorem visible?_set (value : String) (ttl : Option Duration) :
    (s.set now key value ttl).2.visible? t k =
      if k = key then
        (some ⟨.text value, ttl.bind now.later?⟩ : Option StoredEntry).filter (·.isLive t)
      else s.visible? t k := visible?_put _ _

theorem delete_answer : (s.delete now key).1 = .ok (s.visible? now key).isSome := by
  show Except.ok (s.live? now key).isSome = _
  rw [live?_eq_map, Option.isSome_map]

theorem visible?_delete :
    (s.delete now key).2.visible? t k = if k = key then none else s.visible? t k := visible?_erase

end Store
end Bulwark
