import Mathlib.Data.List.Nodup
import Mathlib.Data.List.Perm.Subperm
import Mathlib.Data.List.TakeWhile
import Bulwark.Proofs.Quantity.Fraction
import Bulwark.Proofs.Store.Visible
import Bulwark.Store.Command

/-!
# Scans over a changing store

A scan is read page by page, and anything may happen to the store between two pages.  The cursor is
a position, and a page is everything that is live at its moment between the cursor and the next one
(`IsPage`).  Positions do not move, so pages share no key, whatever comes and goes, and a key that
stays has to be on one of them (`readPages_exact`).

Nothing is assumed of the positions.  Keys that share one are on one page, however long it gets by
that, and the next cursor is a position behind a key of the page: it is never the zero that means
the end.
-/

namespace Bulwark.Store

/-! ## One page -/

/-- A key that a scan is for: it starts with the asked-for part, and is live. -/
def Matches (s : Store) (now : Instant) (keyPrefix key : String) : Prop :=
  Text.startsWith keyPrefix key = true ∧ (s.visible? now key).isSome = true

/-- A page of a scan: the keys between two cursors, or up to the end if the next cursor is zero. -/
structure IsPage (s : Store) (now : Instant) (position : String → ℕ) (keyPrefix : String)
    (count cursor next : ℕ) (keys : List String) : Prop where
  mem_iff : ∀ key, key ∈ keys ↔ s.Matches now keyPrefix key ∧ cursor ≤ position key ∧
    (next ≠ 0 → position key < next)
  nodup : keys.Nodup
  advances : next ≠ 0 → cursor < next
  full : next ≠ 0 → max count 1 ≤ keys.length

theorem scanLe_trans (a b c : ℕ × String) (hab : scanLe a b = true) (hbc : scanLe b c = true) :
    scanLe a c = true := by
  simp only [scanLe, Bool.or_eq_true, Bool.and_eq_true, decide_eq_true_eq] at *
  rcases hab with hab | ⟨hab, hab'⟩ <;> rcases hbc with hbc | ⟨hbc, hbc'⟩
  · exact .inl (by omega)
  · exact .inl (by omega)
  · exact .inl (by omega)
  · exact .inr ⟨by omega, String.le_trans hab' hbc'⟩

theorem scanLe_total (a b : ℕ × String) : (scanLe a b || scanLe b a) = true := by
  simp only [scanLe, Bool.or_eq_true, Bool.and_eq_true, decide_eq_true_eq]
  rcases Nat.lt_trichotomy a.1 b.1 with h | h | h
  · exact .inl (.inl h)
  · rcases String.le_total a.2 b.2 with h' | h'
    · exact .inl (.inr ⟨h, h'⟩)
    · exact .inr (.inr ⟨h.symm, h'⟩)
  · exact .inr (.inl h)

theorem fst_le_of_scanLe {a b : ℕ × String} (h : scanLe a b = true) : a.1 ≤ b.1 := by
  simp only [scanLe, Bool.or_eq_true, Bool.and_eq_true, decide_eq_true_eq] at h
  rcases h with h | ⟨h, _⟩ <;> omega

theorem pairwise_mergeSort_scanLe (keys : List (ℕ × String)) :
    (keys.mergeSort scanLe).Pairwise (·.1 ≤ ·.1) :=
  (List.pairwise_mergeSort scanLe_trans scanLe_total keys).imp fst_le_of_scanLe

/-- Of ordered keys the last has the highest position. -/
theorem fst_le_getLast? {keys : List (ℕ × String)} {last a : ℕ × String}
    (hsorted : keys.Pairwise (·.1 ≤ ·.1)) (hlast : keys.getLast? = some last) (ha : a ∈ keys) :
    a.1 ≤ last.1 := by
  obtain ⟨init, rfl⟩ := List.getLast?_eq_some_iff.mp hlast
  rcases List.mem_append.mp ha with ha | ha
  · exact (List.pairwise_append.mp hsorted).2.2 a ha last List.mem_cons_self
  · rw [List.mem_singleton.mp ha]

/-- A page of ordered keys shows a beginning of them.  Either that is all, or the next cursor is
where the rest begins, behind every key shown. -/
theorem page_shows (count : ℕ) {keys : List (ℕ × String)} (hsorted : keys.Pairwise (·.1 ≤ ·.1)) :
    ∃ shown rest, keys = shown ++ rest ∧ (page count keys).2 = shown.map (·.2) ∧
      ((page count keys).1 = 0 ∧ rest = [] ∨
        (∀ a ∈ shown, a.1 < (page count keys).1) ∧ (∀ b ∈ rest, (page count keys).1 ≤ b.1) ∧
          max count 1 ≤ shown.length) := by
  unfold page
  cases hlast : (keys.take (max count 1)).getLast? with
  | none =>
    have hnil : keys = [] := by
      rcases List.take_eq_nil_iff.mp (List.getLast?_eq_none_iff.mp hlast) with h | h
      · omega
      · exact h
    subst hnil
    exact ⟨[], [], rfl, by rw [List.take_nil]; rfl, .inl ⟨by rw [List.take_nil]; rfl, rfl⟩⟩
  | some last =>
    have hsplit : keys = (keys.take (max count 1) ++
        (keys.drop (max count 1)).takeWhile (·.1 = last.1)) ++
          (keys.drop (max count 1)).dropWhile (·.1 = last.1) := by
      rw [List.append_assoc, List.takeWhile_append_dropWhile, List.take_append_drop]
    refine ⟨_, _, hsplit, by simp only [hlast], ?_⟩
    simp only [hlast]
    cases hrest : (keys.drop (max count 1)).dropWhile (·.1 = last.1) with
    | nil => exact .inl ⟨rfl, rfl⟩
    | cons b rest =>
      right
      rw [hsplit, hrest] at hsorted
      obtain ⟨hshown, hbehind, hcross⟩ := List.pairwise_append.mp hsorted
      have hne : b.1 ≠ last.1 := by
        have hhead := List.head?_dropWhile_not (·.1 = last.1) (keys.drop (max count 1))
        simpa [hrest] using hhead
      have hlt : last.1 < b.1 := by
        have hle := hcross last (List.mem_append_left _ (List.mem_of_getLast? hlast)) b
          List.mem_cons_self
        omega
      refine ⟨fun a ha => ?_, fun b' hb' => ?_, ?_⟩
      · refine Nat.lt_of_le_of_lt ?_ hlt
        rcases List.mem_append.mp ha with ha | ha
        · exact fst_le_getLast? (List.pairwise_append.mp hshown).1 hlast ha
        · have htied := List.mem_takeWhile_imp ha
          exact Nat.le_of_eq (of_decide_eq_true htied)
      · rcases List.mem_cons.mp hb' with rfl | hb'
        · exact Nat.le_refl _
        · exact (List.pairwise_cons.mp hbehind).1 b' hb'
      · have hdrop : keys.drop (max count 1) ≠ [] := by
          intro hnil
          rw [hnil] at hrest
          cases hrest
        have hlength := mt List.drop_eq_nil_iff.mpr hdrop
        rw [List.length_append, List.length_take]
        omega

/-- The keys that a page is cut from. -/
def candidates (s : Store) (position : String → ℕ) (now : Instant) (keyPrefix : String)
    (cursor : ℕ) : List (ℕ × String) :=
  ((s.entries.entries.filter fun e => Text.startsWith keyPrefix e.1 && e.2.isLive now).map
    fun e => (position e.1, e.1)).filter (cursor ≤ ·.1)

theorem mem_candidates {s : Store} {position : String → ℕ} {now : Instant} {keyPrefix : String}
    {cursor i : ℕ} {key : String} :
    (i, key) ∈ s.candidates position now keyPrefix cursor ↔
      i = position key ∧ s.Matches now keyPrefix key ∧ cursor ≤ position key := by
  unfold candidates
  rw [List.mem_filter, List.mem_map, decide_eq_true_eq]
  constructor
  · rintro ⟨⟨⟨k, e⟩, hmem, heq⟩, hcursor⟩
    obtain ⟨rfl, rfl⟩ := Prod.mk.inj heq
    obtain ⟨hentry, htest⟩ := List.mem_filter.mp hmem
    obtain ⟨hstart, hlive⟩ := Bool.and_eq_true_iff.mp htest
    have hvisible := visible?_eq_some_iff.mpr ⟨(s.entries.mem_entries_iff k e).mp hentry, hlive⟩
    exact ⟨rfl, ⟨hstart, by rw [hvisible]; rfl⟩, hcursor⟩
  · rintro ⟨rfl, ⟨hstart, hvisible⟩, hcursor⟩
    obtain ⟨e, he⟩ := Option.isSome_iff_exists.mp hvisible
    obtain ⟨hentry, hlive⟩ := visible?_eq_some_iff.mp he
    refine ⟨⟨(key, e), List.mem_filter.mpr ⟨?_, ?_⟩, rfl⟩, hcursor⟩
    · exact (s.entries.mem_entries_iff key e).mpr hentry
    · exact Bool.and_eq_true_iff.mpr ⟨hstart, hlive⟩

theorem nodup_candidates (s : Store) (position : String → ℕ) (now : Instant) (keyPrefix : String)
    (cursor : ℕ) : ((s.candidates position now keyPrefix cursor).map (·.2)).Nodup := by
  refine List.Nodup.sublist (List.filter_sublist.map _) ?_
  rw [List.map_map]
  exact s.entries.nodup_keys.sublist (List.filter_sublist.map _)

section Congruence

variable {s t : Store} {position : String → ℕ} {now : Instant} {keyPrefix : String} (cursor : ℕ)

/-- Which keys a page is cut from depends on what is asked for and live from the cursor on, and not
on the order of the table. -/
theorem candidates_perm (h : ∀ key, cursor ≤ position key →
    (s.Matches now keyPrefix key ↔ t.Matches now keyPrefix key)) :
    (s.candidates position now keyPrefix cursor).Perm
      (t.candidates position now keyPrefix cursor) := by
  refine (List.perm_ext_iff_of_nodup ?_ ?_).mpr ?_
  · exact (s.nodup_candidates position now keyPrefix cursor).of_map
  · exact (t.nodup_candidates position now keyPrefix cursor).of_map
  · rintro ⟨i, key⟩
    rw [mem_candidates, mem_candidates]
    by_cases hcursor : cursor ≤ position key
    · rw [h key hcursor]
    · simp only [hcursor, and_false]

theorem scanLe_antisymm {a b : ℕ × String} (hab : scanLe a b = true) (hba : scanLe b a = true) :
    a = b := by
  simp only [scanLe, Bool.or_eq_true, Bool.and_eq_true, decide_eq_true_eq] at hab hba
  have hposition : a.1 = b.1 := by omega
  have hkey : a.2 = b.2 :=
    String.le_antisymm (hab.resolve_left (by omega)).2 (hba.resolve_left (by omega)).2
  exact Prod.ext hposition hkey

/-- Stores in which the same keys are asked for and live from the cursor on give the same page. -/
theorem scan_congr (h : ∀ key, cursor ≤ position key →
    (s.Matches now keyPrefix key ↔ t.Matches now keyPrefix key)) (count : ℕ) :
    (s.scan position now keyPrefix cursor count).1 =
      (t.scan position now keyPrefix cursor count).1 := by
  have hsorted : (s.candidates position now keyPrefix cursor).mergeSort scanLe =
      (t.candidates position now keyPrefix cursor).mergeSort scanLe := by
    refine List.Perm.eq_of_pairwise (fun _ _ _ _ => scanLe_antisymm)
      (List.pairwise_mergeSort scanLe_trans scanLe_total _)
      (List.pairwise_mergeSort scanLe_trans scanLe_total _) ?_
    exact (List.mergeSort_perm _ _).trans
      ((candidates_perm cursor h).trans (List.mergeSort_perm _ _).symm)
  exact congrArg (fun keys => Except.ok (page count keys)) hsorted

/-- A store has as many keys as a scan of all of them finds. -/
theorem size_eq_length_candidates (s : Store) (now : Instant) :
    s.size now = (s.candidates (fun _ => 0) now "" 0).length := by
  have hstart : ∀ key : String, Text.startsWith "" key = true := fun _ => rfl
  simp [size, Table.size, Table.filter, candidates, hstart]

theorem size_congr (h : ∀ key, s.Matches now "" key ↔ t.Matches now "" key) :
    s.size now = t.size now := by
  rw [size_eq_length_candidates, size_eq_length_candidates]
  exact (candidates_perm 0 fun key _ => h key).length_eq

/-- No page is cut from more keys than there are. -/
theorem length_candidates_le (s : Store) :
    (s.candidates position now keyPrefix cursor).length ≤ s.entries.size :=
  calc (s.candidates position now keyPrefix cursor).length
      ≤ (s.entries.entries.filter fun e =>
          Text.startsWith keyPrefix e.1 && e.2.isLive now).length := by
        rw [← List.length_map fun e : String × StoredEntry => (position e.1, e.1)]
        exact List.length_filter_le _ _
    _ ≤ s.entries.size := List.length_filter_le _ _

end Congruence

/-- A scan gives a page. -/
theorem scan_isPage (s : Store) (position : String → ℕ) (now : Instant) (keyPrefix : String)
    (count cursor : ℕ) :
    ∃ next keys, (s.scan position now keyPrefix cursor count).1 = .ok (next, keys) ∧
      s.IsPage now position keyPrefix count cursor next keys := by
  set all := (s.candidates position now keyPrefix cursor).mergeSort scanLe with hall
  obtain ⟨shown, rest, hsplit, hkeys, hnext⟩ := page_shows count (pairwise_mergeSort_scanLe _)
  rw [← hall] at hsplit hkeys hnext
  have hmem : ∀ {i key}, (i, key) ∈ shown ++ rest ↔
      i = position key ∧ s.Matches now keyPrefix key ∧ cursor ≤ position key := by
    intro i key
    rw [← hsplit, hall, List.mem_mergeSort]
    exact mem_candidates
  refine ⟨(page count all).1, shown.map (·.2), by rw [← hkeys]; rfl, ?_, ?_, ?_, ?_⟩
  · intro key
    rw [List.mem_map]
    constructor
    · rintro ⟨⟨i, k⟩, hshown, rfl⟩
      obtain ⟨rfl, hmatches, hcursor⟩ := hmem.mp (List.mem_append_left rest hshown)
      refine ⟨hmatches, hcursor, fun hne => ?_⟩
      rcases hnext with ⟨hzero, _⟩ | ⟨hbelow, _⟩
      · exact absurd hzero hne
      · exact hbelow _ hshown
    · rintro ⟨hmatches, hcursor, hbelow⟩
      refine ⟨(position key, key), ?_, rfl⟩
      rcases List.mem_append.mp (hmem.mpr ⟨rfl, hmatches, hcursor⟩) with h | h
      · exact h
      · rcases hnext with ⟨_, rfl⟩ | ⟨hshown, hrest, hlength⟩
        · exact absurd h List.not_mem_nil
        · obtain ⟨a, ha⟩ := List.exists_mem_of_length_pos (l := shown) (by omega)
          have hpos := hshown a ha
          exact absurd (hbelow (by omega)) (Nat.not_lt.mpr (hrest _ h))
  · have hnodup : (all.map (·.2)).Nodup :=
      ((List.mergeSort_perm _ _).map _).nodup_iff.mpr
        (s.nodup_candidates position now keyPrefix cursor)
    rw [hsplit, List.map_append] at hnodup
    exact (List.nodup_append.mp hnodup).1
  · intro hne
    rcases hnext with ⟨hzero, _⟩ | ⟨hshown, _, hlength⟩
    · exact absurd hzero hne
    · obtain ⟨⟨i, k⟩, ha⟩ := List.exists_mem_of_length_pos (l := shown) (by omega)
      obtain ⟨rfl, _, hcursor⟩ := hmem.mp (List.mem_append_left rest ha)
      exact Nat.lt_of_le_of_lt hcursor (hshown _ ha)
  · intro hne
    rcases hnext with ⟨hzero, _⟩ | ⟨_, _, hlength⟩
    · exact absurd hzero hne
    · rw [List.length_map]
      exact hlength

/-- Behind the next cursor there are fewer keys than behind the one before, in every store where no
key is asked for and live that was not so. -/
theorem IsPage.length_candidates_lt {s t : Store} {now : Instant} {position : String → ℕ}
    {keyPrefix : String} {count cursor next : ℕ} {keys : List String}
    (hpage : s.IsPage now position keyPrefix count cursor next keys) (hne : next ≠ 0)
    (hmatches : ∀ key, t.Matches now keyPrefix key → s.Matches now keyPrefix key) :
    (t.candidates position now keyPrefix next).length <
      (s.candidates position now keyPrefix cursor).length := by
  -- the page shows a key, and that one is left out from the next cursor on
  obtain ⟨key, hkey⟩ := List.exists_mem_of_length_pos (l := keys) (by
    have hfull := hpage.full hne
    omega)
  obtain ⟨hshown, hcursor, hbefore⟩ := (hpage.mem_iff key).mp hkey
  have hsubset : (position key, key) :: t.candidates position now keyPrefix next ⊆
      s.candidates position now keyPrefix cursor := by
    rintro ⟨i, k⟩ hk
    rcases List.mem_cons.mp hk with heq | hk
    · obtain ⟨rfl, rfl⟩ := Prod.mk.inj heq
      exact mem_candidates.mpr ⟨rfl, hshown, hcursor⟩
    · obtain ⟨rfl, hmatch, hnext⟩ := mem_candidates.mp hk
      have hadvance := hpage.advances hne
      exact mem_candidates.mpr ⟨rfl, hmatches k hmatch, by omega⟩
  have hnew : (position key, key) ∉ t.candidates position now keyPrefix next := by
    intro hmem
    obtain ⟨_, _, hnext⟩ := mem_candidates.mp hmem
    have hless := hbefore hne
    omega
  have hnodup : ((position key, key) :: t.candidates position now keyPrefix next).Nodup :=
    List.nodup_cons.mpr ⟨hnew, (nodup_candidates _ _ _ _ _).of_map⟩
  have hlength := (List.subperm_of_subset hnodup hsubset).length_le
  rw [List.length_cons] at hlength
  omega

/-- Keys that are in order need no sorting. -/
theorem scan_of_ordered {s : Store} {position : String → ℕ} {now : Instant} {keyPrefix : String}
    {cursor : ℕ} (h : (s.candidates position now keyPrefix cursor).Pairwise (scanLe · ·))
    (count : ℕ) : (s.scan position now keyPrefix cursor count).1 =
      .ok (page count (s.candidates position now keyPrefix cursor)) :=
  congrArg (fun keys => Except.ok (page count keys)) (List.mergeSort_of_pairwise h)

/-- The keys of a page are asked for, and live. -/
theorem matches_of_mem_scan {s : Store} {position : String → ℕ} {now : Instant}
    {keyPrefix key : String} {cursor count next : ℕ} {keys : List String}
    (h : (s.scan position now keyPrefix cursor count).1 = .ok (next, keys)) (hkey : key ∈ keys) :
    s.Matches now keyPrefix key := by
  obtain ⟨next', keys', hscan, hpage⟩ := s.scan_isPage position now keyPrefix count cursor
  rw [hscan] at h
  obtain ⟨rfl, rfl⟩ := Prod.mk.inj (Except.ok.inj h)
  exact ((hpage.mem_iff key).mp hkey).1

/-! ## A whole scan -/

/-- A page as it was read: the store and the clock at its moment, and the answer. -/
structure PageRead where
  store : Store
  now : Instant
  cursor : ℕ
  next : ℕ
  keys : List String

/-- What is done to a store before a page is read, each command at its own moment, and the moment of
the page. -/
structure Interval (α : Type) where
  commands : List (Instant × Command α)
  now : Instant

section Reading

variable {α : Type} [Quantity α] [QuantityText α] (position : String → ℕ) (keyPrefix : String)
  (count : ℕ)

/-- A store after the commands of an interval. -/
def Interval.run (s : Store) (i : Interval α) : Store :=
  i.commands.foldl (fun s c => (s.perform position c.1 c.2).2) s

/-- The pages of a scan from a cursor on, each asked for with the cursor that the page before gave,
until that is zero. -/
def readPages : (cursor : ℕ) → Store → List (Interval α) → List PageRead
  | _, _, [] => []
  | cursor, s, i :: rest =>
    let s := i.run position s
    match s.scan position i.now keyPrefix cursor count with
    | (.error _, _) => []
    | (.ok (next, keys), after) =>
      ⟨s, i.now, cursor, next, keys⟩ :: if next = 0 then [] else readPages next after rest

/-- Pages that follow each other from a cursor on. -/
inductive Chain : ℕ → List PageRead → Prop where
  | stop (cursor : ℕ) : Chain cursor []
  | last {s : Store} {now : Instant} {cursor : ℕ} {keys : List String}
      (isPage : s.IsPage now position keyPrefix count cursor 0 keys) :
      Chain cursor [⟨s, now, cursor, 0, keys⟩]
  | step {s : Store} {now : Instant} {cursor next : ℕ} {keys : List String}
      {pages : List PageRead} (isPage : s.IsPage now position keyPrefix count cursor next keys)
      (hne : next ≠ 0) (chain : Chain next pages) :
      Chain cursor (⟨s, now, cursor, next, keys⟩ :: pages)

/-- In an interval the page is read that the scan at its end answers with, and behind that page the
reading goes on, unless it was the last. -/
theorem readPages_cons {cursor next : ℕ} {s : Store} {i : Interval α} {keys : List String}
    (hscan : ((i.run position s).scan position i.now keyPrefix cursor count).1 = .ok (next, keys))
    (rest : List (Interval α)) :
    readPages position keyPrefix count cursor s (i :: rest) =
      ⟨i.run position s, i.now, cursor, next, keys⟩ ::
        if next = 0 then []
        else readPages position keyPrefix count next (i.run position s) rest := by
  have hanswer : (i.run position s).scan position i.now keyPrefix cursor count =
      (.ok (next, keys), i.run position s) := Prod.ext hscan rfl
  rw [readPages]
  simp only [hanswer]

/-- Whatever happens in between, the pages of a scan follow each other. -/
theorem chain_readPages (cursor : ℕ) (s : Store) (intervals : List (Interval α)) :
    Chain position keyPrefix count cursor
      (readPages position keyPrefix count cursor s intervals) := by
  induction intervals generalizing cursor s with
  | nil => exact .stop cursor
  | cons i rest ih =>
    obtain ⟨next, keys, hscan, hpage⟩ :=
      (i.run position s).scan_isPage position i.now keyPrefix count cursor
    rw [readPages_cons position keyPrefix count hscan]
    by_cases hzero : next = 0
    · subst hzero
      exact .last hpage
    · rw [if_neg hzero]
      exact .step hpage hzero (ih next _)

/-- Every page is the answer to a scan of the store at its moment. -/
theorem scan_of_mem_readPages (cursor : ℕ) (s : Store) (intervals : List (Interval α)) :
    ∀ p ∈ readPages position keyPrefix count cursor s intervals,
      (p.store.scan position p.now keyPrefix p.cursor count).1 = .ok (p.next, p.keys) := by
  induction intervals generalizing cursor s with
  | nil => exact fun p hp => absurd hp List.not_mem_nil
  | cons i rest ih =>
    obtain ⟨next, keys, hscan, -⟩ :=
      (i.run position s).scan_isPage position i.now keyPrefix count cursor
    intro p hp
    rw [readPages_cons position keyPrefix count hscan] at hp
    rcases List.mem_cons.mp hp with rfl | hp
    · exact hscan
    · by_cases hzero : next = 0
      · rw [if_pos hzero] at hp
        exact absurd hp List.not_mem_nil
      · rw [if_neg hzero] at hp
        exact ih next _ p hp

/-- A page is read in every interval, or the last one read is the end. -/
theorem readPages_reads_on (cursor : ℕ) (s : Store) (intervals : List (Interval α)) :
    (readPages position keyPrefix count cursor s intervals).length = intervals.length ∨
      ∃ p, (readPages position keyPrefix count cursor s intervals).getLast? = some p ∧
        p.next = 0 := by
  induction intervals generalizing cursor s with
  | nil => exact .inl rfl
  | cons i rest ih =>
    obtain ⟨next, keys, hscan, -⟩ :=
      (i.run position s).scan_isPage position i.now keyPrefix count cursor
    rw [readPages_cons position keyPrefix count hscan]
    by_cases hzero : next = 0
    · rw [if_pos hzero]
      exact .inr ⟨_, rfl, hzero⟩
    · rw [if_neg hzero]
      rcases ih next (i.run position s) with hlength | ⟨p, hlast, hend⟩
      · left
        rw [List.length_cons, List.length_cons, hlength]
      · right
        refine ⟨p, ?_, hend⟩
        rw [List.getLast?_cons, hlast]
        rfl

namespace Chain

variable {position keyPrefix count} {cursor : ℕ} {pages : List PageRead} {key : String}

/-- Every page of a chain is one. -/
theorem isPage (h : Chain position keyPrefix count cursor pages) :
    ∀ p ∈ pages, p.store.IsPage p.now position keyPrefix count p.cursor p.next p.keys := by
  induction h with
  | stop cursor => exact fun p hp => absurd hp List.not_mem_nil
  | last hpage =>
    intro p hp
    obtain rfl := List.mem_singleton.mp hp
    exact hpage
  | step hpage hne chain ih =>
    intro p hp
    rcases List.mem_cons.mp hp with rfl | hp
    · exact hpage
    · exact ih p hp

/-- The keys of a chain stand behind its cursor. -/
theorem le_position (h : Chain position keyPrefix count cursor pages)
    (hkey : key ∈ pages.flatMap (·.keys)) : cursor ≤ position key := by
  induction h with
  | stop cursor => exact absurd hkey List.not_mem_nil
  | last hpage =>
    rw [List.flatMap_singleton] at hkey
    exact ((hpage.mem_iff key).mp hkey).2.1
  | step hpage hne chain ih =>
    rcases List.mem_append.mp (List.flatMap_cons ▸ hkey) with hkey | hkey
    · exact ((hpage.mem_iff key).mp hkey).2.1
    · exact Nat.le_trans (hpage.advances hne).le (ih hkey)

/-- No key is on two pages, and on none twice. -/
theorem nodup (h : Chain position keyPrefix count cursor pages) :
    (pages.flatMap (·.keys)).Nodup := by
  induction h with
  | stop cursor => exact List.nodup_nil
  | last hpage =>
    rw [List.flatMap_singleton]
    exact hpage.nodup
  | step hpage hne chain ih =>
    rw [List.flatMap_cons]
    refine List.nodup_append.mpr ⟨hpage.nodup, ih, ?_⟩
    rintro key hkey _ hlater rfl
    exact absurd (((hpage.mem_iff key).mp hkey).2.2 hne) (Nat.not_lt.mpr (chain.le_position hlater))

/-- A key that every page of a finished chain could show is on one of them. -/
theorem mem_of_matches (h : Chain position keyPrefix count cursor pages)
    (hfinished : ∃ p, pages.getLast? = some p ∧ p.next = 0)
    (hkey : ∀ p ∈ pages, p.store.Matches p.now keyPrefix key) (hcursor : cursor ≤ position key) :
    key ∈ pages.flatMap (·.keys) := by
  induction h with
  | stop cursor => exact absurd hfinished (by simp)
  | last hpage =>
    rw [List.flatMap_singleton]
    exact (hpage.mem_iff key).mpr ⟨hkey _ List.mem_cons_self, hcursor, fun h => absurd rfl h⟩
  | @step s now cursor next keys pages hpage hne chain ih =>
    rw [List.flatMap_cons, List.mem_append]
    by_cases hlt : position key < next
    · exact .inl ((hpage.mem_iff key).mpr ⟨hkey _ List.mem_cons_self, hcursor, fun _ => hlt⟩)
    · right
      refine ih ?_ (fun p hp => hkey p (List.mem_cons_of_mem _ hp)) (Nat.not_lt.mp hlt)
      cases pages with
      | nil =>
        obtain ⟨p, hlast, hzero⟩ := hfinished
        obtain rfl := Option.some.inj hlast
        exact absurd hzero hne
      | cons p rest =>
        rw [List.getLast?_cons_cons] at hfinished
        exact hfinished

/-- The cursors of a chain go up until the end. -/
theorem pairwise_next (h : Chain position keyPrefix count cursor pages) :
    ((pages.map (·.next)).filter (· ≠ 0)).Pairwise (· < ·) ∧
      ∀ next ∈ (pages.map (·.next)).filter (· ≠ 0), cursor < next := by
  induction h with
  | stop cursor => exact ⟨.nil, fun _ hnext => absurd hnext List.not_mem_nil⟩
  | last hpage => exact ⟨.nil, fun _ hnext => absurd hnext List.not_mem_nil⟩
  | @step s now cursor next keys pages hpage hne chain ih =>
    rw [List.map_cons, List.filter_cons_of_pos (by simpa using hne)]
    refine ⟨List.pairwise_cons.mpr ⟨ih.2, ih.1⟩, fun n hn => ?_⟩
    rcases List.mem_cons.mp hn with rfl | hn
    · exact hpage.advances hne
    · exact Nat.lt_trans (hpage.advances hne) (ih.2 n hn)

/-- Only the last page of a chain can be the end. -/
theorem next_ne_zero (h : Chain position keyPrefix count cursor pages) :
    ∀ p ∈ pages.dropLast, p.next ≠ 0 := by
  induction h with
  | stop cursor => exact fun p hp => absurd hp List.not_mem_nil
  | last hpage => exact fun p hp => absurd hp List.not_mem_nil
  | @step s now cursor next keys pages hpage hne chain ih =>
    cases pages with
    | nil => exact fun p hp => absurd hp List.not_mem_nil
    | cons p rest =>
      intro q hq
      rw [List.dropLast_cons_cons] at hq
      rcases List.mem_cons.mp hq with rfl | hq
      · exact hne
      · exact ih q hq

end Chain

/-- **A scan of a changing store.**  Whatever is done to the store between two pages, every scan
answers with a page, and they are read until the end or as long as there are intervals.  No key is
given twice, every key given is asked for and live when its page is read, and a key that is so at
every page of a finished scan is given once.  The cursors go up until the end, which comes only when
the last page leaves nothing out, and every page but the last is full. -/
theorem readPages_exact (s : Store) (intervals : List (Interval α)) :
    let pages := readPages position keyPrefix count 0 s intervals
    (∀ p ∈ pages,
        (p.store.scan position p.now keyPrefix p.cursor count).1 = .ok (p.next, p.keys)) ∧
      (pages.length = intervals.length ∨ ∃ p, pages.getLast? = some p ∧ p.next = 0) ∧
      (pages.flatMap (·.keys)).Nodup ∧
      (∀ p ∈ pages, ∀ key ∈ p.keys, p.store.Matches p.now keyPrefix key) ∧
      ((∃ p, pages.getLast? = some p ∧ p.next = 0) →
        ∀ key, (∀ p ∈ pages, p.store.Matches p.now keyPrefix key) →
          (pages.flatMap (·.keys)).count key = 1) ∧
      ((pages.map (·.next)).filter (· ≠ 0)).Pairwise (· < ·) ∧
      (∀ p ∈ pages, p.next = 0 → ∀ key, p.store.Matches p.now keyPrefix key →
        p.cursor ≤ position key → key ∈ p.keys) ∧
      ∀ p ∈ pages.dropLast, max count 1 ≤ p.keys.length := by
  intro pages
  have hchain : Chain position keyPrefix count 0 pages :=
    chain_readPages position keyPrefix count 0 s intervals
  refine ⟨scan_of_mem_readPages position keyPrefix count 0 s intervals,
    readPages_reads_on position keyPrefix count 0 s intervals, hchain.nodup, ?_, ?_,
    hchain.pairwise_next.1, ?_, ?_⟩
  · intro p hp key hkey
    exact (((hchain.isPage p hp).mem_iff key).mp hkey).1
  · intro hfinished key hkey
    exact List.count_eq_one_of_mem hchain.nodup
      (hchain.mem_of_matches hfinished hkey (Nat.zero_le _))
  · intro p hp hzero key hkey hcursor
    exact ((hchain.isPage p hp).mem_iff key).mpr ⟨hkey, hcursor, fun hne => absurd hzero hne⟩
  · intro p hp
    exact (hchain.isPage p (List.dropLast_subset _ hp)).full (hchain.next_ne_zero p hp)

end Reading

/-- Users who come and go while they are listed.  Before the second page one is deleted, one is new
ahead of the cursor, and the time of another is over; before the third one is new behind it. -/
def restlessUsers : List (Interval ℚ) :=
  [⟨[(⟨0⟩, .set "user:al" "" none), (⟨0⟩, .set "user:bob" "" none),
      (⟨0⟩, .set "user:cat" "" none), (⟨0⟩, .set "user:eliza" "" none),
      (⟨0⟩, .set "host:alpha" "" none), (⟨0⟩, .expire "user:eliza" ⟨2⟩)], ⟨0⟩⟩,
    ⟨[(⟨1⟩, .delete "user:al"), (⟨1⟩, .hashSet "user:dora" "visits" "1")], ⟨2⟩⟩,
    ⟨[(⟨3⟩, .takeTokens "user:eve" ⟨3, 1, 10, 2, 0, 5⟩), (⟨3⟩, .delete "user:bob")], ⟨4⟩⟩]

/-- Two users at one position are on one page, and one who stays all the time is given once. -/
theorem readPages_exact_restlessUsers :
    let pages := @readPages ℚ _ Quantity.fractions String.length "user:" 1 0 empty restlessUsers
    pages.map (fun p => (p.cursor, p.next, p.keys)) =
        [(0, 8, ["user:al"]), (8, 9, ["user:bob", "user:cat"]), (9, 0, ["user:dora"])] ∧
      (∃ p, pages.getLast? = some p ∧ p.next = 0) ∧
      (∀ p ∈ pages, p.store.Matches p.now "user:" "user:cat") ∧
      (pages.flatMap (·.keys)).count "user:cat" = 1 := by
  intro pages
  obtain ⟨_, _, _, _, honce, _⟩ :=
    @readPages_exact ℚ _ Quantity.fractions String.length "user:" 1 empty restlessUsers
  -- the keys come in the order of their positions, so each page is read off without sorting
  have hcons := fun cursor s i rest hordered =>
    @readPages_cons ℚ _ Quantity.fractions String.length "user:" 1 cursor _ s i _
      (scan_of_ordered hordered 1) rest
  obtain ⟨hread, hlast, hlive⟩ :
      pages.map (fun p => (p.cursor, p.next, p.keys)) =
          [(0, 8, ["user:al"]), (8, 9, ["user:bob", "user:cat"]), (9, 0, ["user:dora"])] ∧
        pages.getLast?.map (·.next) = some 0 ∧
        pages.all (fun p => Text.startsWith "user:" "user:cat" &&
          (p.store.visible? p.now "user:cat").isSome) = true := by
    unfold pages restlessUsers
    rw [hcons, if_neg, hcons, if_neg, hcons, if_pos]
    all_goals decide +kernel
  have hfinished : ∃ p, pages.getLast? = some p ∧ p.next = 0 := Option.map_eq_some_iff.mp hlast
  have hstays : ∀ p ∈ pages, p.store.Matches p.now "user:" "user:cat" := fun p hp =>
    Bool.and_eq_true_iff.mp (List.all_eq_true.mp hlive p hp)
  exact ⟨hread, hfinished, hstays, honce hfinished "user:cat" hstays⟩

end Bulwark.Store
