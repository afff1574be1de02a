/-!
# Tables

A finite map from strings, as a list of entries with a proof that no key occurs twice.  Its view is
`Table.get?`: `get?_insert`, `get?_erase` and `get?_filter` say what each operation does to it, and
`mem_entries_iff` ties the list of entries to it.  A new key goes to the end, so the list keeps the
order in which keys came.
-/

namespace Bulwark

/-- Replaces the value of a key in a list of entries, or adds the key at the end. -/
def putEntry {β : Type} (key : String) (v : β) : List (String × β) → List (String × β)
  | [] => [(key, v)]
  | (k, w) :: rest => if k = key then (k, v) :: rest else (k, w) :: putEntry key v rest

/-- The value of a key in a list of entries. -/
def valueAt? {β : Type} (key : String) : List (String × β) → Option β
  | [] => none
  | (k, v) :: rest => if k = key then some v else valueAt? key rest

theorem mem_keys_putEntry {β : Type} {key : String} {v : β} {l : List (String × β)} {k : String} :
    k ∈ (putEntry key v l).map Prod.fst ↔ k = key ∨ k ∈ l.map Prod.fst := by
  induction l with
  | nil => simp [putEntry]
  | cons e rest ih =>
    obtain ⟨k', w⟩ := e
    by_cases h : k' = key
    · subst h
      simp [putEntry]
    · simp only [putEntry, h, if_false, List.map_cons, List.mem_cons, ih]
      constructor
      · rintro (rfl | rfl | hk)
        · exact .inr (.inl rfl)
        · exact .inl rfl
        · exact .inr (.inr hk)
      · rintro (rfl | rfl | hk)
        · exact .inr (.inl rfl)
        · exact .inl rfl
        · exact .inr (.inr hk)

theorem nodup_keys_putEntry {β : Type} {key : String} {v : β} {l : List (String × β)}
    (h : (l.map Prod.fst).Nodup) : ((putEntry key v l).map Prod.fst).Nodup := by
  induction l with
  | nil => simp [putEntry]
  | cons e rest ih =>
    obtain ⟨k, w⟩ := e
    simp only [List.map_cons, List.nodup_cons] at h
    by_cases hk : k = key
    · subst hk
      simpa [putEntry] using h
    · rw [putEntry, if_neg hk, List.map_cons, List.nodup_cons, mem_keys_putEntry, not_or]
      exact ⟨⟨hk, h.1⟩, ih h.2⟩

theorem valueAt?_putEntry {β : Type} (key : String) (v : β) (l : List (String × β)) (k : String) :
    valueAt? k (putEntry key v l) = if k = key then some v else valueAt? k l := by
  induction l with
  | nil => by_cases h : k = key <;> simp [putEntry, valueAt?, h, eq_comm (a := key)]
  | cons e rest ih =>
    obtain ⟨k', w⟩ := e
    by_cases hk : k' = key
    · subst hk
      by_cases h : k' = k
      · subst h
        simp [putEntry, valueAt?]
      · simp [putEntry, valueAt?, h, Ne.symm h]
    · by_cases h : k' = k
      · subst h
        simp [putEntry, valueAt?, hk]
      · simp [putEntry, valueAt?, hk, h, ih]

theorem putEntry_putEntry {β : Type} (key : String) (v w : β) (l : List (String × β)) :
    putEntry key w (putEntry key v l) = putEntry key w l := by
  induction l with
  | nil => simp [putEntry]
  | cons e rest ih =>
    obtain ⟨k, u⟩ := e
    by_cases hk : k = key
    · simp [putEntry, hk]
    · simp [putEntry, hk, ih]

theorem valueAt?_eq_some_iff {β : Type} {l : List (String × β)} (h : (l.map Prod.fst).Nodup)
    {k : String} {v : β} : valueAt? k l = some v ↔ (k, v) ∈ l := by
  induction l with
  | nil => simp [valueAt?]
  | cons e rest ih =>
    obtain ⟨k', w⟩ := e
    simp only [List.map_cons, List.nodup_cons] at h
    by_cases hk : k' = k
    · subst hk
      have hnot : (k', v) ∉ rest := fun hm => h.1 (List.mem_map_of_mem (f := Prod.fst) hm)
      simp [valueAt?, hnot, eq_comm]
    · simp [valueAt?, hk, Ne.symm hk, ih h.2]

/-- A finite map from strings. -/
structure Table (β : Type) where
  entries : List (String × β)
  nodup_keys : (entries.map Prod.fst).Nodup

namespace Table

variable {β : Type}

/-- No keys. -/
def empty : Table β := ⟨[], .nil⟩

instance : Inhabited (Table β) := ⟨empty⟩

/-- The value of a key. -/
def get? (t : Table β) (key : String) : Option β := valueAt? key t.entries

/-- Sets the value of a key. -/
def insert (t : Table β) (key : String) (v : β) : Table β :=
  ⟨putEntry key v t.entries, nodup_keys_putEntry t.nodup_keys⟩

/-- The entries that pass a test. -/
def filter (t : Table β) (keep : String → β → Bool) : Table β :=
  ⟨t.entries.filter fun e => keep e.1 e.2, t.nodup_keys.sublist (List.filter_sublist.map _)⟩

/-- Removes a key. -/
def erase (t : Table β) (key : String) : Table β := t.filter fun k _ => k ≠ key

/-- The number of keys. -/
def size (t : Table β) : Nat := t.entries.length

@[simp]
theorem get?_empty (key : String) : (empty : Table β).get? key = none := rfl

theorem get?_insert (t : Table β) (key : String) (v : β) (k : String) :
    (t.insert key v).get? k = if k = key then some v else t.get? k :=
  valueAt?_putEntry key v t.entries k

/-- Of two values set one after the other, the second stands. -/
theorem insert_insert (t : Table β) (key : String) (v w : β) :
    (t.insert key v).insert key w = t.insert key w := by
  unfold insert
  simp only [putEntry_putEntry]

/-- The entries of a table are the keys with their values. -/
theorem mem_entries_iff (t : Table β) (k : String) (v : β) :
    (k, v) ∈ t.entries ↔ t.get? k = some v :=
  (valueAt?_eq_some_iff t.nodup_keys).symm

theorem get?_filter (t : Table β) (keep : String → β → Bool) (k : String) :
    (t.filter keep).get? k = (t.get? k).filter (keep k) := by
  apply Option.ext
  intro v
  rw [← mem_entries_iff, Option.filter_eq_some_iff, ← mem_entries_iff]
  simp [filter]

theorem get?_erase (t : Table β) (key k : String) :
    (t.erase key).get? k = if k = key then none else t.get? k := by
  rw [erase, get?_filter]
  by_cases h : k = key
  · simp [h]
  · cases t.get? k <;> simp [h]

end Table
end Bulwark
