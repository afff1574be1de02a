import Bulwark.Proofs.Store.Scan

/-!
# Walks over a store

A walk reads a store page by page, up to the end (`Store.walk`).  While nothing happens to the store
its pages show every key that is asked for and live, and none twice (`mem_pages_iff`,
`nodup_pages`).  What it shows from a cursor on depends on the keys there alone
(`pagesFrom_congr`), so whoever walks over a store may delete what he has passed.
-/

namespace Bulwark.Store

section Pages

variable (s : Store) (position : String → ℕ) (now : Instant) (keyPrefix : String) (count : ℕ)

/-- The pages of a walk from a cursor on, while nothing happens to the store. -/
def pagesFrom (fuel cursor : ℕ) : List (List String) :=
  (walkFrom position now keyPrefix count false fuel cursor s).1

/-- The pages of a whole walk, while nothing happens to the store. -/
def pages : List (List String) := (walk position now keyPrefix count false s).1

variable {s position now keyPrefix count}

/-- After a page come the pages from the next cursor on. -/
theorem pagesFrom_succ {cursor next : ℕ} {keys : List String}
    (h : (s.scan position now keyPrefix cursor count).1 = .ok (next, keys)) (fuel : ℕ) :
    s.pagesFrom position now keyPrefix count (fuel + 1) cursor =
      keys :: if next = 0 then [] else s.pagesFrom position now keyPrefix count fuel next := by
  have hscan : s.scan position now keyPrefix cursor count = (.ok (next, keys), s) := Prod.ext h rfl
  unfold pagesFrom
  rw [walkFrom, hscan]
  dsimp only
  split <;> rfl

variable (s position now keyPrefix count) in
/-- The pages of a walk follow each other, and end if they may be as many as there are keys. -/
theorem chain_pagesFrom (fuel cursor : ℕ) : ∃ pages : List PageRead,
    Chain position keyPrefix count cursor pages ∧
    pages.flatMap (·.keys) = (s.pagesFrom position now keyPrefix count fuel cursor).flatten ∧
    (∀ p ∈ pages, p.store = s ∧ p.now = now) ∧
    ((s.candidates position now keyPrefix cursor).length < fuel →
      ∃ p, pages.getLast? = some p ∧ p.next = 0) := by
  induction fuel generalizing cursor with
  | zero => exact ⟨[], .stop cursor, rfl, nofun, fun h => absurd h (Nat.not_lt_zero _)⟩
  | succ fuel ih =>
    obtain ⟨next, keys, hscan, hpage⟩ := s.scan_isPage position now keyPrefix count cursor
    rw [pagesFrom_succ hscan]
    by_cases hlast : next = 0
    · subst hlast
      refine ⟨[⟨s, now, cursor, 0, keys⟩], .last hpage, rfl, ?_, fun _ => ⟨_, rfl, rfl⟩⟩
      rintro p hp
      obtain rfl := List.mem_singleton.mp hp
      exact ⟨rfl, rfl⟩
    · obtain ⟨pages, hchain, hkeys, hsame, hfinished⟩ := ih next
      rw [if_neg hlast]
      refine ⟨⟨s, now, cursor, next, keys⟩ :: pages, .step hpage hlast hchain, ?_, ?_, ?_⟩
      · rw [List.flatMap_cons, hkeys, List.flatten_cons]
      · rintro p hp
        rcases List.mem_cons.mp hp with rfl | hp
        · exact ⟨rfl, rfl⟩
        · exact hsame p hp
      · intro hfuel
        have hfewer := hpage.length_candidates_lt hlast fun _ => id
        obtain ⟨p, hp, hzero⟩ := hfinished (by omega)
        exact ⟨p, by rw [List.getLast?_cons, hp]; rfl, hzero⟩

/-- A page shows keys from the cursor on that are asked for and live. -/
theorem matches_of_mem_pagesFrom {fuel cursor : ℕ} {key : String}
    (hkey : key ∈ (s.pagesFrom position now keyPrefix count fuel cursor).flatten) :
    s.Matches now keyPrefix key ∧ cursor ≤ position key := by
  obtain ⟨pages, hchain, hkeys, hsame, -⟩ :=
    s.chain_pagesFrom position now keyPrefix count fuel cursor
  rw [← hkeys] at hkey
  refine ⟨?_, hchain.le_position hkey⟩
  obtain ⟨p, hp, hmem⟩ := List.mem_flatMap.mp hkey
  obtain ⟨hstore, hnow⟩ := hsame p hp
  have hmatches := (((hchain.isPage p hp).mem_iff key).mp hmem).1
  rw [hstore, hnow] at hmatches
  exact hmatches

/-- The pages of a walk show the keys that are asked for and live. -/
theorem mem_pages_iff {key : String} :
    key ∈ (s.pages position now keyPrefix count).flatten ↔ s.Matches now keyPrefix key := by
  constructor
  · exact fun hkey => (matches_of_mem_pagesFrom hkey).1
  · intro hkey
    obtain ⟨pages, hchain, hkeys, hsame, hfinished⟩ :=
      s.chain_pagesFrom position now keyPrefix count (s.entries.size + 1) 0
    have hfuel : (s.candidates position now keyPrefix 0).length ≤ s.entries.size :=
      length_candidates_le 0 s
    show key ∈ (s.pagesFrom position now keyPrefix count (s.entries.size + 1) 0).flatten
    rw [← hkeys]
    refine hchain.mem_of_matches (hfinished (by omega)) (fun p hp => ?_) (Nat.zero_le _)
    obtain ⟨hstore, hnow⟩ := hsame p hp
    rw [hstore, hnow]
    exact hkey

/-- No page shows a key twice, and no two show the same. -/
theorem nodup_pages : (s.pages position now keyPrefix count).flatten.Nodup := by
  obtain ⟨pages, hchain, hkeys, -⟩ :=
    s.chain_pagesFrom position now keyPrefix count (s.entries.size + 1) 0
  show (s.pagesFrom position now keyPrefix count (s.entries.size + 1) 0).flatten.Nodup
  rw [← hkeys]
  exact hchain.nodup

/-- What a walk shows from a cursor on depends on the keys there. -/
theorem pagesFrom_congr {t : Store} {cursor : ℕ} (h : ∀ key, cursor ≤ position key →
    (s.Matches now keyPrefix key ↔ t.Matches now keyPrefix key)) (fuel : ℕ) :
    s.pagesFrom position now keyPrefix count fuel cursor =
      t.pagesFrom position now keyPrefix count fuel cursor := by
  induction fuel generalizing cursor with
  | zero => rfl
  | succ fuel ih =>
    obtain ⟨next, keys, hscan, hpage⟩ := s.scan_isPage position now keyPrefix count cursor
    rw [pagesFrom_succ hscan, pagesFrom_succ ((scan_congr cursor h count).symm.trans hscan)]
    by_cases hlast : next = 0
    · rw [if_pos hlast, if_pos hlast]
    · have hadvances := hpage.advances hlast
      rw [if_neg hlast, if_neg hlast, ih fun key hkey => h key (by omega)]

end Pages

/-! ## Deleting what has been passed -/

section Deleting

variable {s : Store} {now : Instant} {keys keys' : List String} {key : String}

theorem deleteAll_append : deleteAll now s (keys ++ keys') =
    deleteAll now (deleteAll now s keys) keys' := List.foldl_append ..

/-- Of the deleted keys nothing is left, and the others are as they were. -/
theorem get?_deleteAll : (deleteAll now s keys).entries.get? key =
    if key ∈ keys then none else s.entries.get? key := by
  induction keys generalizing s with
  | nil => rfl
  | cons k rest ih =>
    show (deleteAll now (s.delete now k).2 rest).entries.get? key = _
    rw [ih]
    show (if key ∈ rest then none else (s.entries.erase k).get? key) = _
    rw [Table.get?_erase]
    by_cases hk : key = k <;> by_cases hrest : key ∈ rest <;> simp [hk, hrest]

theorem visible?_deleteAll {t : Instant} : (deleteAll now s keys).visible? t key =
    if key ∈ keys then none else s.visible? t key := by
  unfold visible?
  rw [get?_deleteAll]
  split <;> rfl

end Deleting

end Bulwark.Store
