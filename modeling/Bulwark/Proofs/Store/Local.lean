import Bulwark.Proofs.Store.Visible
import Bulwark.Store.Command

/-!
# Operations on one key

Nearly every operation of a store is about one key (`ActsOn`): it leaves the other entries as they
are, and what it answers, and what it leaves under the key, follow from what it found there.  So two
stores that hold the same under a key are alike to whoever works on that key, however much they
differ elsewhere.
-/

namespace Bulwark.Store

/-- An operation that is about one key. -/
structure ActsOn {β : Type} (key : String) (operation : Store → Result β) : Prop where
  /-- Every other entry stays. -/
  frame : ∀ s k, k ≠ key → (operation s).2.entries.get? k = s.entries.get? k
  /-- The answer and the entry after it follow from the entry before. -/
  congr : ∀ s t : Store, s.entries.get? key = t.entries.get? key →
    (operation s).1 = (operation t).1 ∧
      (operation s).2.entries.get? key = (operation t).2.entries.get? key

section Entries

variable {s t : Store} {now : Instant} {key k : String}

@[simp]
theorem get?_put (value : StoredValue) (deadline : Option Instant) :
    (s.put key value deadline).entries.get? k =
      if k = key then some ⟨value, deadline⟩ else s.entries.get? k := Table.get?_insert _ _ _ _

@[simp]
theorem get?_dropExpired :
    (s.dropExpired now key).entries.get? k =
      if k = key then (s.entries.get? key).filter (·.isLive now) else s.entries.get? k := by
  by_cases hk : k = key
  · subst hk
    unfold dropExpired
    cases he : s.entries.get? k with
    | none => simp [he]
    | some e =>
      by_cases hlive : e.isLive now = true <;>
        simp [hlive, he, Table.get?_erase, Option.filter_some]
  · unfold dropExpired
    cases s.entries.get? key with
    | none => simp [hk]
    | some e => by_cases hlive : e.isLive now = true <;> simp [hlive, hk, Table.get?_erase]

/-- An entry without a deadline outlives every moment. -/
theorem filter_isLive_of_persistent {entry : Option StoredEntry}
    (h : ∀ e ∈ entry, e.deadline = none) : entry.filter (·.isLive now) = entry := by
  cases entry with
  | none => rfl
  | some e =>
    have hlive : e.isLive now = true := by
      unfold StoredEntry.isLive
      rw [h e rfl]
    rw [Option.filter_some, if_pos hlive]

/-- Nothing without a deadline is ever dropped. -/
theorem get?_dropExpired_of_persistent (h : ∀ e ∈ s.entries.get? key, e.deadline = none)
    (k : String) : (s.dropExpired now k).entries.get? key = s.entries.get? key := by
  rw [get?_dropExpired]
  split
  · rename_i hk
    subst hk
    exact filter_isLive_of_persistent h
  · rfl

theorem live?_congr (h : s.entries.get? key = t.entries.get? key) :
    s.live? now key = t.live? now key := by
  unfold live?
  rw [h]

theorem writable_congr (h : s.entries.get? key = t.entries.get? key) :
    s.writable now key = t.writable now key := by
  unfold writable
  rw [h]

end Entries

section Operations

variable {α β γ : Type} (now : Instant) (key : String)

theorem get_actsOn : ActsOn key (·.get now key) := by
  constructor
  · intro s k hk
    unfold get
    split <;> simp [hk]
  · intro s t h
    unfold get
    rw [live?_congr h]
    split <;> simp [h]

theorem set_actsOn (value : String) (ttl : Option Duration) :
    ActsOn key (·.set now key value ttl) where
  frame := fun s k hk => by simp [set, hk]
  congr := fun s t _ => by simp [set]

theorem delete_actsOn : ActsOn key (·.delete now key) where
  frame := fun s k hk => by simp [delete, Table.get?_erase, hk]
  congr := fun s t h => by simp [delete, Table.get?_erase, live?_congr h]

theorem contains_actsOn : ActsOn key (·.contains now key) where
  frame := fun s k hk => by simp [contains, hk]
  congr := fun s t h => by simp [contains, live?_congr h, h]

theorem expire_actsOn (ttl : Duration) : ActsOn key (·.expire now key ttl) := by
  constructor
  · intro s k hk
    unfold expire
    split <;> simp [hk]
  · intro s t h
    unfold expire
    rw [live?_congr h]
    split <;> simp [h]

theorem ttl_actsOn : ActsOn key (·.ttl now key) := by
  constructor
  · intro s k hk
    unfold ttl
    split
    · simp [hk]
    · split <;> rfl
  · intro s t h
    unfold ttl
    rw [h]
    split
    · simp [h]
    · split <;> simp [h]

theorem hashGet_actsOn (field : String) : ActsOn key (·.hashGet now key field) := by
  constructor
  · intro s k hk
    unfold hashGet
    split <;> simp [hk]
  · intro s t h
    unfold hashGet
    rw [live?_congr h]
    split <;> simp [h]

theorem hashUpdate_actsOn (update : Table String → Except StoreError (β × Table String)) :
    ActsOn key (·.hashUpdate now key update) := by
  constructor
  · intro s k hk
    unfold hashUpdate
    split
    · rfl
    · split <;> simp [hk]
  · intro s t h
    unfold hashUpdate
    rw [writable_congr h]
    split
    · exact ⟨rfl, h⟩
    · split <;> simp [h]

theorem takeTokens_actsOn [Quantity α] [QuantityText α] (r : Bucket.Request α) :
    ActsOn key (·.takeTokens now key r) := by
  constructor
  · intro s k hk
    unfold takeTokens
    split <;> simp [hk]
  · intro s t h
    unfold takeTokens
    rw [writable_congr h]
    split <;> simp [h]

theorem hashIncrementEach_actsOn (increments : List (String × Int)) :
    ActsOn key (·.hashIncrementEach now key increments) := by
  induction increments with
  | nil => exact ⟨fun _ _ _ => rfl, fun _ _ h => ⟨rfl, h⟩⟩
  | cons increment rest ih =>
    obtain ⟨field, delta⟩ := increment
    have hfirst : ActsOn key (·.hashIncrement now key field delta) := hashUpdate_actsOn now key _
    constructor
    · intro s k hk
      have hframe := hfirst.frame s k hk
      unfold hashIncrementEach
      generalize s.hashIncrement now key field delta = r at hframe ⊢
      obtain ⟨_ | _, s'⟩ := r
      · exact hframe
      · exact (ih.frame s' k hk).trans hframe
    · intro s t h
      have hcongr := hfirst.congr s t h
      unfold hashIncrementEach
      generalize s.hashIncrement now key field delta = r at hcongr ⊢
      generalize t.hashIncrement now key field delta = r' at hcongr ⊢
      obtain ⟨_ | _, s'⟩ := r <;> obtain ⟨_ | _, t'⟩ := r'
      · exact ⟨congrArg Except.error (Except.error.inj hcongr.1), hcongr.2⟩
      · cases hcongr.1
      · cases hcongr.1
      · exact ih.congr s' t' hcongr.2

theorem ActsOn.map {operation : Store → Result β} (h : ActsOn key operation) (f : β → γ) :
    ActsOn key (fun s => Result.map f (operation s)) where
  frame := h.frame
  congr := fun s t hst => ⟨congrArg (Except.map f) (h.congr s t hst).1, (h.congr s t hst).2⟩

/-- The key that a command is about, if it is about one. -/
def Command.key? : Command α → Option String
  | .get key => some key
  | .set key _ _ => some key
  | .delete key => some key
  | .contains key => some key
  | .hashGet key _ => some key
  | .hashSet key _ _ => some key
  | .hashIncrement key _ _ => some key
  | .hashIncrementAll key _ => some key
  | .hashIncrementEach key _ => some key
  | .expire key _ => some key
  | .ttl key => some key
  | .takeTokens key _ => some key
  | .scan _ _ _ => none
  | .size => none
  | .purge => none
  | .clear => none

/-- A command about a key is about that key alone. -/
theorem perform_actsOn [Quantity α] [QuantityText α] (position : String → ℕ) {c : Command α}
    (h : c.key? = some key) : ActsOn key (·.perform position now c) := by
  cases c with
  | get => cases h; exact (get_actsOn now key).map key _
  | set => cases h; exact (set_actsOn now key _ _).map key _
  | delete => cases h; exact (delete_actsOn now key).map key _
  | contains => cases h; exact (contains_actsOn now key).map key _
  | hashGet => cases h; exact (hashGet_actsOn now key _).map key _
  | hashSet => cases h; exact (hashUpdate_actsOn now key _).map key _
  | hashIncrement => cases h; exact (hashUpdate_actsOn now key _).map key _
  | hashIncrementAll => cases h; exact (hashUpdate_actsOn now key _).map key _
  | hashIncrementEach => cases h; exact (hashIncrementEach_actsOn now key _).map key _
  | expire => cases h; exact (expire_actsOn now key _).map key _
  | ttl => cases h; exact (ttl_actsOn now key).map key _
  | takeTokens => cases h; exact (takeTokens_actsOn now key _).map key _
  | scan => cases h
  | size => cases h
  | purge => cases h
  | clear => cases h

end Operations

/-! ## Reading -/

section Reading

variable {α : Type} {s : Store} {key : String} (now : Instant)

/-- A command that reads a key. -/
def Command.isRead : Command α → Bool
  | .get _ => true
  | .contains _ => true
  | .hashGet _ _ => true
  | .ttl _ => true
  | _ => false

/-- Reading a field, of any key, keeps what has no deadline. -/
theorem hashGet_keeps (h : ∀ e ∈ s.entries.get? key, e.deadline = none) (k field : String) :
    (s.hashGet now k field).2.entries.get? key = s.entries.get? key := by
  unfold hashGet
  split
  · exact get?_dropExpired_of_persistent h k
  · rfl
  · rfl

/-- Reading keeps what has no deadline. -/
theorem perform_keeps [Quantity α] [QuantityText α] (position : String → ℕ) {c : Command α}
    (hread : c.isRead = true) (h : ∀ e ∈ s.entries.get? key, e.deadline = none) :
    (s.perform position now c).2.entries.get? key = s.entries.get? key := by
  cases c with
  | get k =>
    show (s.get now k).2.entries.get? key = _
    unfold get
    split
    · exact get?_dropExpired_of_persistent h k
    · rfl
    · rfl
  | contains k => exact get?_dropExpired_of_persistent h k
  | hashGet k field => exact hashGet_keeps now h k field
  | ttl k =>
    show (s.ttl now k).2.entries.get? key = _
    unfold ttl
    split
    · exact get?_dropExpired_of_persistent h k
    · split <;> rfl
  | _ => cases hread

end Reading

/-! ## Reserved keys -/

section Reserved

variable {α : Type} (reserved : String → Prop)

/-- A command that does not write the reserved keys. -/
def Command.Spares (c : Command α) : Prop :=
  (match c with
  | .clear => False
  | _ => True) ∧ (c.isRead = true ∨ ∀ key ∈ c.key?, ¬ reserved key)

/-- Stores that hold the same under every key that is not reserved. -/
def AgreeOff (s t : Store) : Prop := ∀ key, ¬ reserved key → s.entries.get? key = t.entries.get? key

variable {reserved} {s t : Store}

theorem AgreeOff.refl (s : Store) : s.AgreeOff reserved s := fun _ _ => rfl

/-- Whoever works on a key that is not reserved cannot tell stores apart that agree there, and
leaves them so. -/
theorem ActsOn.agreeOff {β : Type} {key : String} {operation : Store → Result β}
    (hacts : ActsOn key operation) (hkey : ¬ reserved key) (h : s.AgreeOff reserved t) :
    (operation s).1 = (operation t).1 ∧ (operation s).2.AgreeOff reserved (operation t).2 := by
  obtain ⟨hanswer, hentry⟩ := hacts.congr s t (h key hkey)
  refine ⟨hanswer, fun k hk => ?_⟩
  by_cases heq : k = key
  · rw [heq]
    exact hentry
  · rw [hacts.frame s k heq, hacts.frame t k heq, h k hk]

/-- Whoever works on a reserved key changes nothing off it. -/
theorem ActsOn.agreeOff_self {β : Type} {key : String} {operation : Store → Result β}
    (hacts : ActsOn key operation) (hkey : reserved key) : (operation s).2.AgreeOff reserved s :=
  fun k hk => hacts.frame s k fun heq => hk (heq ▸ hkey)

variable [Quantity α] [QuantityText α] (position : String → ℕ) (now : Instant)

/-- A command does the same to stores that agree off the reserved keys. -/
theorem perform_agreeOff (c : Command α) (h : s.AgreeOff reserved t) :
    (s.perform position now c).2.AgreeOff reserved (t.perform position now c).2 := by
  cases hkey : c.key? with
  | some key =>
    have hacts := perform_actsOn now key position hkey
    by_cases hreserved : reserved key
    · intro k hk
      rw [hacts.agreeOff_self hreserved k hk, hacts.agreeOff_self hreserved k hk, h k hk]
    · exact (hacts.agreeOff hreserved h).2
  | none =>
    cases c with
    | scan => exact h
    | size => exact h
    | purge => exact fun k hk => by simp [perform, purge, Table.get?_filter, h k hk]
    | clear => exact AgreeOff.refl _
    | _ => cases hkey

/-- A command that does not write the reserved keys keeps what lies there without a deadline. -/
theorem perform_spares {c : Command α} (hspares : c.Spares reserved) {key : String}
    (hkey : reserved key) (hpersistent : ∀ e ∈ s.entries.get? key, e.deadline = none) :
    (s.perform position now c).2.entries.get? key = s.entries.get? key := by
  rcases hspares.2 with hread | hkeys
  · exact perform_keeps now position hread hpersistent
  cases hkey' : c.key? with
  | some k =>
    exact (perform_actsOn now k position hkey').frame s key fun heq =>
      hkeys k hkey' (heq ▸ hkey)
  | none =>
    cases c with
    | scan => rfl
    | size => rfl
    | purge =>
      show (s.entries.filter _).get? key = _
      rw [Table.get?_filter]
      exact filter_isLive_of_persistent hpersistent
    | clear => exact hspares.1.elim
    | _ => cases hkey'

end Reserved

end Bulwark.Store
