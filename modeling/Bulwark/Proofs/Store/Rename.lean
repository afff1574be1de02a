import Mathlib.Data.List.Nodup
import Mathlib.Logic.Equiv.Basic
import Bulwark.Proofs.Store.Visible

/-!
# Stores under other names

A permutation of the keys turns a store into one that holds the same under other names
(`Store.rename`).  An operation on a renamed key does there what it does to the key here, and gives
the same answer: the one place where a name gets into an answer is the error for a key that holds
the other kind of value (`Store.get_rename`).  A scan meets the renamed keys in the same order, if
the positions of the keys are renamed with them.
-/

namespace Bulwark

variable {β : Type} (σ : Equiv.Perm String)

namespace Table

/-- The same values under other keys. -/
def rename (t : Table β) : Table β where
  entries := t.entries.map fun e => (σ e.1, e.2)
  nodup_keys := by
    have hkeys : (t.entries.map fun e => (σ e.1, e.2)).map Prod.fst =
        (t.entries.map Prod.fst).map σ := by
      rw [List.map_map, List.map_map]
      rfl
    rw [hkeys]
    exact List.Nodup.map σ.injective t.nodup_keys

theorem eq_of_entries_eq {t u : Table β} (h : t.entries = u.entries) : t = u := by
  cases t
  cases u
  cases h
  rfl

theorem get?_rename (t : Table β) (key : String) : (t.rename σ).get? (σ key) = t.get? key := by
  apply Option.ext
  intro v
  rw [← mem_entries_iff, ← mem_entries_iff]
  show (σ key, v) ∈ t.entries.map (fun e => (σ e.1, e.2)) ↔ _
  rw [List.mem_map]
  constructor
  · rintro ⟨⟨k, w⟩, hmem, heq⟩
    obtain ⟨hk, rfl⟩ := Prod.mk.inj heq
    obtain rfl := σ.injective hk
    exact hmem
  · intro hmem
    exact ⟨(key, v), hmem, rfl⟩

theorem insert_rename (t : Table β) (key : String) (v : β) :
    (t.rename σ).insert (σ key) v = (t.insert key v).rename σ := by
  refine eq_of_entries_eq ?_
  show putEntry (σ key) v (t.entries.map fun e => (σ e.1, e.2)) =
    (putEntry key v t.entries).map fun e => (σ e.1, e.2)
  induction t.entries with
  | nil => rfl
  | cons e rest ih =>
    obtain ⟨k, w⟩ := e
    rw [List.map_cons, putEntry, putEntry]
    by_cases hk : k = key
    · rw [if_pos (congrArg σ hk), if_pos hk]
      rfl
    · rw [if_neg fun heq => hk (σ.injective heq), if_neg hk, ih]
      rfl

theorem erase_rename (t : Table β) (key : String) :
    (t.rename σ).erase (σ key) = (t.erase key).rename σ := by
  refine eq_of_entries_eq ?_
  show (t.entries.map fun e => (σ e.1, e.2)).filter (fun e => e.1 ≠ σ key) =
    (t.entries.filter fun e => e.1 ≠ key).map fun e => (σ e.1, e.2)
  rw [List.filter_map]
  congr 2
  funext e
  simp only [Function.comp, ne_eq, σ.injective.eq_iff]

end Table

namespace Store

/-- The same store under other keys. -/
def rename (s : Store) : Store := ⟨s.entries.rename σ⟩

variable (s : Store) (now : Instant) (key : String)

theorem visible?_rename : (s.rename σ).visible? now (σ key) = s.visible? now key :=
  congrArg (·.filter (·.isLive now)) (s.entries.get?_rename σ key)

theorem dropExpired_rename :
    (s.rename σ).dropExpired now (σ key) = (s.dropExpired now key).rename σ := by
  unfold dropExpired
  rw [show (s.rename σ).entries.get? (σ key) = s.entries.get? key from
    s.entries.get?_rename σ key]
  cases s.entries.get? key with
  | none => rfl
  | some e =>
    by_cases hlive : e.isLive now = true
    · simp only [if_pos hlive]
    · simp only [if_neg hlive]
      exact congrArg Store.mk (s.entries.erase_rename σ key)

/-- Reading a renamed key gives what the key holds; only the error names it. -/
theorem get_rename :
    (s.rename σ).get now (σ key) =
      (textAnswer (σ key) (s.visible? now key), (s.get now key).2.rename σ) := by
  refine Prod.ext ?_ ?_
  · rw [get_answer, visible?_rename]
  · have hlive : (s.rename σ).live? now (σ key) = s.live? now key := by
      rw [live?_eq_map, live?_eq_map, visible?_rename]
    unfold get
    rw [hlive]
    rcases s.live? now key with _ | ⟨_ | _⟩
    · exact dropExpired_rename σ s now key
    · rfl
    · rfl

theorem ttl_rename :
    (s.rename σ).ttl now (σ key) = ((s.ttl now key).1, (s.ttl now key).2.rename σ) := by
  refine Prod.ext ?_ ?_
  · rw [ttl_answer, ttl_answer, visible?_rename]
  · unfold ttl
    rw [← visible?, ← visible?, visible?_rename]
    rcases s.visible? now key with _ | ⟨_, _ | _⟩
    · exact dropExpired_rename σ s now key
    · rfl
    · rfl

theorem set_rename (value : String) (ttl : Option Duration) :
    (s.rename σ).set now (σ key) value ttl =
      ((s.set now key value ttl).1, (s.set now key value ttl).2.rename σ) :=
  Prod.ext rfl (congrArg Store.mk (s.entries.insert_rename σ key _))

theorem delete_rename :
    (s.rename σ).delete now (σ key) = ((s.delete now key).1, (s.delete now key).2.rename σ) := by
  refine Prod.ext ?_ ?_
  · rw [delete_answer, delete_answer, visible?_rename]
  · exact congrArg Store.mk (s.entries.erase_rename σ key)

/-! ## Scans -/

theorem page_rename (count : Nat) (keys : List (Nat × String)) :
    page count (keys.map fun k => (k.1, σ k.2)) =
      ((page count keys).1, (page count keys).2.map σ) := by
  unfold page
  simp only [← List.map_take, ← List.map_drop, List.getLast?_map]
  cases (keys.take (max count 1)).getLast? with
  | none => rfl
  | some last =>
    simp only [Option.map_some, List.takeWhile_map, List.dropWhile_map, List.head?_map,
      Option.map_map, List.map_append, List.map_map]
    rfl

/-- The page of a scan, out of the live keys under the prefix. -/
theorem scan_eq (position : String → Nat) (keyPrefix : String) (cursor count : Nat) :
    s.scan position now keyPrefix cursor count =
      (.ok (page count ((((s.entries.entries.filter fun e =>
        Text.startsWith keyPrefix e.1 && e.2.isLive now).map fun e =>
          (position e.1, e.1)).filter (cursor ≤ ·.1)).mergeSort scanLe)), s) := rfl

/-- Without ties the order of a scan is the order of the positions. -/
theorem scanLe_rename {position : String → Nat} (hinjective : Function.Injective position)
    {a b : Nat × String} (ha : a.1 = position a.2) (hb : b.1 = position b.2) :
    scanLe a b = scanLe (a.1, σ a.2) (b.1, σ b.2) := by
  unfold scanLe
  by_cases htie : a.1 = b.1
  · have hsame : a.2 = b.2 := hinjective (by rw [← ha, ← hb, htie])
    simp only [htie, hsame, String.le_refl, decide_true]
  · simp only [htie, decide_false, Bool.false_and]

/-- A scan meets the renamed keys in the order of the keys, if no two of them share a position. -/
theorem scan_rename {position position' : String → Nat}
    (hposition : ∀ k, position' (σ k) = position k)
    (hinjective : Function.Injective position) {keyPrefix : String}
    (hstart : ∀ k, Text.startsWith keyPrefix (σ k) = Text.startsWith keyPrefix k)
    (cursor count : Nat) :
    (s.rename σ).scan position' now keyPrefix cursor count =
      ((s.scan position now keyPrefix cursor count).1.map fun answer => (answer.1, answer.2.map σ),
        s.rename σ) := by
  have hlive : ((s.rename σ).entries.entries.filter fun e =>
      Text.startsWith keyPrefix e.1 && e.2.isLive now) =
      (s.entries.entries.filter fun e =>
        Text.startsWith keyPrefix e.1 && e.2.isLive now).map fun e => (σ e.1, e.2) := by
    show (s.entries.entries.map fun e => (σ e.1, e.2)).filter _ = _
    rw [List.filter_map]
    congr 2
    funext e
    exact congrArg (· && e.2.isLive now) (hstart e.1)
  rw [scan_eq, scan_eq, hlive]
  generalize (s.entries.entries.filter fun e =>
    Text.startsWith keyPrefix e.1 && e.2.isLive now) = live
  -- the renamed keys stand at the positions of the keys
  have hkeys : (live.map fun e => (σ e.1, e.2)).map (fun e => (position' e.1, e.1)) =
      (live.map fun e => (position e.1, e.1)).map fun k => (k.1, σ k.2) := by
    rw [List.map_map, List.map_map]
    refine List.map_congr_left fun e _ => ?_
    exact congrArg (·, σ e.1) (hposition e.1)
  have hfilter : ∀ keys : List (Nat × String),
      (keys.map fun k => (k.1, σ k.2)).filter (cursor ≤ ·.1) =
        (keys.filter (cursor ≤ ·.1)).map fun k => (k.1, σ k.2) := by
    intro keys
    rw [List.filter_map]
    rfl
  simp only [hkeys, hfilter]
  -- each key stands at its own position
  have hplace : ∀ k ∈ (live.map fun e => (position e.1, e.1)).filter (cursor ≤ ·.1),
      k.1 = position k.2 := by
    intro k hk
    obtain ⟨e, _, rfl⟩ := List.mem_map.mp (List.mem_filter.mp hk).1
    rfl
  have horder : ∀ a ∈ (live.map fun e => (position e.1, e.1)).filter (cursor ≤ ·.1),
      ∀ b ∈ (live.map fun e => (position e.1, e.1)).filter (cursor ≤ ·.1),
      scanLe a b = scanLe (a.1, σ a.2) (b.1, σ b.2) :=
    fun a ha b hb => scanLe_rename σ hinjective (hplace a ha) (hplace b hb)
  rw [← List.map_mergeSort horder, page_rename]
  rfl

end Store
end Bulwark
