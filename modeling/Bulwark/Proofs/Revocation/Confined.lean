import Bulwark.Proofs.Revocation.Page
import Bulwark.Proofs.Store.Border
import Bulwark.Proofs.Store.Scan
import Bulwark.Revocation.Call

/-!
# Blacklists keep to their keys

Every call of a blacklist works on keys that start with its prefix.  So it goes by what the store
holds there, and changes nothing else in it.

A listing and a sweep bound the number of their pages by the number of all keys, whoever they belong
to.  That bound is never what ends them: every page but the last moves past a key of their own, and
a sweep only removes keys (`listFrom_congr`, `sweepFrom_congr`).
-/

namespace Bulwark.Blacklist

/-- The gate in a session of a blacklist. -/
def gated : Gated Session := ⟨Session.gate, fun s gate => { s with gate }, fun _ _ => rfl,
  fun _ _ _ => rfl⟩

/-- Blacklists go by the keys that are theirs. -/
def border (own : String → Prop) : Border Session := gated.border own .any

section Rules

variable {own : String → Prop} {change : Store.Change}

theorem confined_report (events : List Event) :
    Confined (gated.border own change) (report events) :=
  gated.confined_aside (fun _ _ => rfl) (fun _ _ => rfl) fun _ => rfl

theorem confined_count (f : RevocationCount → RevocationCount) :
    Confined (gated.border own change) (count f) :=
  gated.confined_aside (fun _ _ => rfl) (fun _ _ => rfl) fun _ => rfl

theorem confined_callStore {β : Type} {key : String} {operation : Store → Store.Result β}
    (hacts : Store.ActsOn key operation) (hown : own key)
    (hchange : ∀ s, change.allows s (operation s).2) :
    Confined (gated.border own change) (callStore operation) :=
  gated.confined_call hacts hown hchange

theorem confined_revokes (now : Instant) (text : String) :
    Confined (gated.border own change) (revokes now text) := by
  unfold revokes
  split
  · exact Confined.pure true
  · exact (Confined.ofClock now).map

end Rules

/-! ## Single tokens -/

section Single

variable {b : Blacklist} {own : String → Prop}
  (hown : ∀ key, Text.startsWith b.keyPrefix key = true → own key) (now : Instant)
include hown

theorem confined_key {β : Type} {token : String} {operation : Store → Store.Result β}
    (hacts : Store.ActsOn (b.key token) operation) :
    Confined (border own) (callStore operation) :=
  confined_callStore hacts (hown _ (Text.startsWith_append b.keyPrefix token)) fun _ => trivial

theorem add_confined (token reason : String) (ttlSeconds : ℕ) :
    Confined (border own) (b.add now token reason ttlSeconds) := by
  unfold add
  split
  · exact Confined.pure _
  · refine (Confined.ofClock now).bind fun date => ?_
    refine (confined_key hown (Store.set_actsOn now _ _ _)).bind fun answer => ?_
    cases answer with
    | error e => exact Confined.pure _
    | ok _ =>
      exact (confined_report _).bind fun _ => (confined_count _).bind fun _ => Confined.pure _

theorem addOrLog_confined (token reason : String) (ttlSeconds : ℕ) :
    Confined (border own) (b.addOrLog now token reason ttlSeconds) := by
  refine (add_confined hown now token reason ttlSeconds).bind fun answer => ?_
  cases answer with
  | error fault => exact (confined_report _).bind fun _ => Confined.pure false
  | ok _ => exact Confined.pure true

theorem addEach_confined (reason : String) (ttlSeconds : ℕ) (tokens : List String) :
    Confined (border own) (b.addEach now reason ttlSeconds tokens) := by
  induction tokens with
  | nil => exact Confined.pure 0
  | cons token rest ih =>
    refine (add_confined hown now token reason ttlSeconds).bind fun answer => ?_
    cases answer with
    | error fault =>
      exact (confined_report _).bind fun _ => (Confined.pure 0).bind fun _ => ih.map
    | ok _ => exact (Confined.pure 1).bind fun _ => ih.map

theorem isRevoked_confined (token : String) :
    Confined (border own) (b.isRevoked now token) := by
  unfold isRevoked
  split
  · exact Confined.pure false
  · refine (confined_key hown (Store.get_actsOn now _)).bind fun answer => ?_
    match answer with
    | .error e =>
      exact (confined_report _).bind fun _ => (confined_count _).bind fun _ => Confined.pure _
    | .ok none => exact (confined_count _).bind fun _ => Confined.pure false
    | .ok (some text) =>
      exact (confined_revokes now text).bind fun revoked =>
        (confined_count _).bind fun _ => Confined.pure revoked

theorem info_confined (token : String) : Confined (border own) (b.info now token) := by
  unfold info
  split
  · exact Confined.pure _
  · refine (confined_key hown (Store.get_actsOn now _)).bind fun answer => ?_
    match answer with
    | .error e => exact Confined.pure _
    | .ok none => exact Confined.pure _
    | .ok (some text) =>
      dsimp only
      split
      · exact Confined.pure _
      · refine (Confined.ofClock now).bind fun date => ?_
        split
        · exact Confined.pure _
        · refine (confined_key hown (Store.ttl_actsOn now _)).bind fun answer => ?_
          split
          · exact Confined.pure _
          · exact Confined.pure _
          · exact Confined.pure _

theorem remove_confined (token : String) : Confined (border own) (b.remove now token) := by
  unfold remove
  split
  · exact Confined.pure _
  · refine (confined_key hown (Store.delete_actsOn now _)).bind fun answer => ?_
    match answer with
    | .error e => exact Confined.pure _
    | .ok false => exact Confined.pure _
    | .ok true =>
      exact (confined_report _).bind fun _ => (confined_count _).bind fun _ => Confined.pure _

end Single

/-! ## Pages -/

section Pages

variable {b : Blacklist} {own : String → Prop} {change : Store.Change}
  (hown : ∀ key, Text.startsWith b.keyPrefix key = true → own key) (now : Instant)

/-- The keys that the pages of a walk from a cursor on are cut from. -/
def keysFrom (b : Blacklist) (now : Instant) (cursor : ℕ) (s : Session) : List (ℕ × String) :=
  s.gate.store.candidates s.gate.position now b.keyPrefix cursor

/-- An open gate lets a page through, and the store is as before. -/
theorem scanPage_isPage {s : Session} (hopen : s.gate.IsOpen) (cursor : ℕ) :
    ∃ next keys, b.scanPage now cursor s = .ok (.ok (next, keys), { s with gate := s.gate.next }) ∧
      s.gate.store.IsPage now s.gate.position b.keyPrefix pageSize cursor next keys := by
  obtain ⟨next, keys, hscan, hpage⟩ :=
    s.gate.store.scan_isPage s.gate.position now b.keyPrefix pageSize cursor
  refine ⟨next, keys, ?_, hpage⟩
  unfold scanPage
  rw [hopen.scan_eq, hscan]

/-- A page shows keys under the prefix. -/
theorem startsWith_of_mem_scanPage {s t : Session} {cursor next : ℕ} {keys : List String}
    (h : b.scanPage now cursor s = .ok (.ok (next, keys), t)) {key : String} (hkey : key ∈ keys) :
    Text.startsWith b.keyPrefix key = true := by
  have hanswer : (s.gate.scan now b.keyPrefix cursor pageSize).1 = .ok (next, keys) :=
    congrArg Prod.fst (Except.ok.inj h)
  unfold Gate.scan at hanswer
  rw [Gate.call_eq] at hanswer
  split at hanswer
  · cases hanswer
  · exact (Store.matches_of_mem_scan hanswer hkey).1

/-- Behind the next cursor there are fewer keys than behind the one before, and removing keys leaves
no more. -/
theorem keysFrom_lt {s t : Session} {cursor next : ℕ} {keys : List String}
    (hpage : s.gate.store.IsPage now s.gate.position b.keyPrefix pageSize cursor next keys)
    (hne : next ≠ 0) (hposition : t.gate.position = s.gate.position)
    (hremoves : Store.Change.removal.allows s.gate.store t.gate.store) :
    (b.keysFrom now next t).length < (b.keysFrom now cursor s).length := by
  have hmatches : ∀ key, t.gate.store.Matches now b.keyPrefix key →
      s.gate.store.Matches now b.keyPrefix key := by
    rintro key ⟨hstart, hvisible⟩
    obtain ⟨e, he⟩ := Option.isSome_iff_exists.mp hvisible
    obtain ⟨hentry, hlive⟩ := Store.visible?_eq_some_iff.mp he
    refine ⟨hstart, ?_⟩
    rw [Store.visible?_eq_some_iff.mpr ⟨hremoves key e hentry, hlive⟩]
    rfl
  unfold keysFrom
  rw [hposition]
  exact hpage.length_candidates_lt hne hmatches

include hown

theorem scanPage_confined (cursor : ℕ) :
    Confined (gated.border own change) (b.scanPage now cursor) :=
  gated.confined_scan hown now cursor pageSize

theorem keysFrom_perm {s s' : Session} (h : (gated.border own change).same s s') (cursor : ℕ) :
    (b.keysFrom now cursor s).Perm (b.keysFrom now cursor s') := by
  have hposition : s.gate.position = s'.gate.position := h.1.position_eq
  unfold keysFrom
  rw [hposition]
  exact Store.candidates_perm cursor fun key _ =>
    Store.matches_iff_of_agreeOff h.1.agree fun hstart hnot => hnot (hown key hstart)

end Pages

/-! ## Listing -/

section Listing

variable {b : Blacklist} {own : String → Prop}
  (hown : ∀ key, Text.startsWith b.keyPrefix key = true → own key) (now : Instant)

/-- The bound on the pages does not matter, as long as it exceeds the keys. -/
theorem listFrom_fuel {s : Session} (hopen : s.gate.IsOpen) {fuel fuel' cursor : ℕ}
    {seen : List String} (hfuel : (b.keysFrom now cursor s).length < fuel)
    (hfuel' : (b.keysFrom now cursor s).length < fuel') :
    b.listFrom now fuel cursor seen s = b.listFrom now fuel' cursor seen s := by
  induction fuel generalizing fuel' cursor seen s with
  | zero => exact absurd hfuel (Nat.not_lt_zero _)
  | succ fuel ih =>
    cases fuel' with
    | zero => exact absurd hfuel' (Nat.not_lt_zero _)
    | succ fuel' =>
      obtain ⟨next, keys, hscan, hpage⟩ := scanPage_isPage (b := b) now hopen cursor
      rw [listFrom_succ, listFrom_succ]
      rw [bind_of_ok hscan, bind_of_ok hscan]
      unfold listPage
      dsimp only
      by_cases hlast : next = 0
      · rw [if_pos hlast, if_pos hlast]
      · rw [if_neg hlast, if_neg hlast]
        have hfewer := keysFrom_lt (b := b) now (t := { s with gate := s.gate.next }) hpage hlast
          (Gate.next_position _) fun key e => by rw [Gate.next_store]; exact id
        exact ih hopen.next (by omega) (by omega)

include hown

theorem listFrom_confined (fuel cursor : ℕ) (seen : List String) :
    Confined (border own) (b.listFrom now fuel cursor seen) := by
  induction fuel generalizing cursor seen with
  | zero => exact Confined.pure seen
  | succ fuel ih =>
    rw [listFrom_succ]
    refine (scanPage_confined hown now cursor).bind fun answer => ?_
    cases answer with
    | error e => exact (confined_report _).bind fun _ => Confined.pure seen
    | ok page =>
      unfold listPage
      dsimp only
      split
      · exact Confined.pure _
      · exact ih _ _

theorem listAll_confined : Confined (border own) (b.listAll now) where
  congr := fun s s' h => by
    show SameEnd _ (b.listFrom now (s.gate.store.entries.size + 1) 0 [] s)
      (b.listFrom now (s'.gate.store.entries.size + 1) 0 [] s')
    have hkeys := (keysFrom_perm hown now h 0).length_eq
    have hfuel : (b.keysFrom now 0 s).length ≤ s.gate.store.entries.size :=
      Store.length_candidates_le 0 _
    have hfuel' : (b.keysFrom now 0 s').length ≤ s'.gate.store.entries.size :=
      Store.length_candidates_le 0 _
    have hbound : b.listFrom now (s'.gate.store.entries.size + 1) 0 [] s' =
        b.listFrom now (s.gate.store.entries.size + 1) 0 [] s' :=
      listFrom_fuel now h.1.isOpen' (by omega) (by omega)
    rw [hbound]
    exact (listFrom_confined hown now _ 0 []).congr s s' h
  reaches := fun s a t h => (listFrom_confined hown now _ 0 []).reaches s a t h

end Listing

/-! ## Sweeping -/

section Sweeping

variable {b : Blacklist} {own : String → Prop} (now : Instant) (date : Timestamp)

/-- Looking at an entry removes it, or leaves it as it is. -/
theorem isStale_confined {key : String} (hkey : own key) :
    Confined (gated.border own .removal) (isStale now date key) := by
  refine (confined_callStore (Store.get_actsOn now key) hkey (Store.get_removes now key)).bind
    fun answer => ?_
  match answer with
  | .error e => exact Confined.pure _
  | .ok none => exact Confined.pure _
  | .ok (some text) =>
    dsimp only
    split
    · exact Confined.pure _
    · split
      · refine (confined_callStore (Store.ttl_actsOn now key) hkey
          (Store.ttl_removes now key)).bind fun answer => ?_
        cases answer with
        | error e => exact Confined.pure _
        | ok ttl => exact Confined.pure _
      · exact Confined.pure _

theorem sweepKey_confined {key : String} (hkey : own key) :
    Confined (gated.border own .removal) (sweepKey now date key) := by
  refine (isStale_confined now date hkey).bind fun answer => ?_
  match answer with
  | .error e => exact Confined.pure _
  | .ok false => exact Confined.pure _
  | .ok true =>
    refine (confined_callStore (Store.delete_actsOn now key) hkey
      (Store.delete_removes now key)).bind fun answer => ?_
    match answer with
    | .error e => exact Confined.pure _
    | .ok false => exact Confined.pure _
    | .ok true => exact (confined_count _).bind fun _ => Confined.pure _

theorem sweepKeys_confined {keys : List String} (hkeys : ∀ key ∈ keys, own key) :
    Confined (gated.border own .removal) (sweepKeys now date keys) := by
  induction keys with
  | nil => exact Confined.pure _
  | cons key rest ih =>
    refine (sweepKey_confined now date (hkeys key List.mem_cons_self)).bind fun answer => ?_
    cases answer with
    | error e => exact Confined.pure _
    | ok n =>
      refine (ih fun k hk => hkeys k (List.mem_cons_of_mem key hk)).bind fun answer => ?_
      cases answer with
      | error e => exact Confined.pure _
      | ok m => exact Confined.pure _

/-- The bound on the pages does not matter, as long as it exceeds the keys. -/
theorem sweepFrom_fuel {s : Session} (hopen : s.gate.IsOpen) {fuel fuel' cursor : ℕ}
    (hfuel : (b.keysFrom now cursor s).length < fuel)
    (hfuel' : (b.keysFrom now cursor s).length < fuel') :
    b.sweepFrom now date fuel cursor s = b.sweepFrom now date fuel' cursor s := by
  induction fuel generalizing fuel' cursor s with
  | zero => exact absurd hfuel (Nat.not_lt_zero _)
  | succ fuel ih =>
    cases fuel' with
    | zero => exact absurd hfuel' (Nat.not_lt_zero _)
    | succ fuel' =>
      obtain ⟨next, keys, hscan, hpage⟩ := scanPage_isPage (b := b) now hopen cursor
      rw [sweepFrom_succ, sweepFrom_succ, bind_of_ok hscan, bind_of_ok hscan]
      dsimp only [sweepPage]
      cases hswept : sweepKeys now date keys { s with gate := s.gate.next } with
      | error halt => rw [bind_of_error hswept, bind_of_error hswept]
      | ok swept =>
        obtain ⟨answer, t⟩ := swept
        rw [bind_of_ok hswept, bind_of_ok hswept]
        cases answer with
        | error e => rfl
        | ok n =>
          dsimp only
          by_cases hlast : next = 0
          · rw [if_pos hlast, if_pos hlast]
          · rw [if_neg hlast, if_neg hlast]
            -- the keys of the page are taken for anybody's, since only what is removed matters here
            have hsweep : Confined (gated.border (fun _ => True) .removal)
                (sweepKeys now date keys) := sweepKeys_confined now date fun _ _ => trivial
            obtain ⟨hgate, hremoves⟩ := hsweep.reaches _ _ _ hswept hopen.next
            have hfewer := keysFrom_lt (b := b) now (t := t) hpage hlast
              (hgate.position_eq.symm.trans (Gate.next_position _)) (by
                rw [← Gate.next_store s.gate]
                exact hremoves)
            exact bind_congr_left (ih hgate.isOpen' (by omega) (by omega))

variable (hown : ∀ key, Text.startsWith b.keyPrefix key = true → own key)
include hown

theorem sweepFrom_confined (fuel cursor : ℕ) :
    Confined (border own) (b.sweepFrom now date fuel cursor) := by
  induction fuel generalizing cursor with
  | zero => exact Confined.pure _
  | succ fuel ih =>
    rw [sweepFrom_succ]
    refine (scanPage_confined hown now cursor).bind_of_answers
      (P := fun answer => ∀ page, answer = .ok page → ∀ key ∈ page.2, own key)
      (fun s answer t hscan page heq key hkey =>
        hown key (startsWith_of_mem_scanPage now (heq ▸ hscan) hkey)) fun answer hkeys => ?_
    cases answer with
    | error e => exact Confined.pure _
    | ok page =>
      have hsweep : Confined (border own) (sweepKeys now date page.2) :=
        (sweepKeys_confined now date (hkeys page rfl)).mono rfl fun s t h hopen =>
          ⟨(h hopen).1, trivial⟩
      refine hsweep.bind fun answer => ?_
      cases answer with
      | error e => exact Confined.pure _
      | ok n =>
        dsimp only
        split
        · exact Confined.pure _
        · refine (ih page.1).bind fun answer => ?_
          cases answer with
          | error e => exact Confined.pure _
          | ok m => exact Confined.pure _

/-- A sweep of all pages.  The two bounds differ where the stores hold different keys of others. -/
theorem sweepAll_confined : Confined (border own)
    fun s => b.sweepFrom now date (s.gate.store.entries.size + 1) 0 s where
  congr := fun s s' h => by
    have hkeys := (keysFrom_perm hown now h 0).length_eq
    have hfuel : (b.keysFrom now 0 s).length ≤ s.gate.store.entries.size :=
      Store.length_candidates_le 0 _
    have hfuel' : (b.keysFrom now 0 s').length ≤ s'.gate.store.entries.size :=
      Store.length_candidates_le 0 _
    have hbound : b.sweepFrom now date (s'.gate.store.entries.size + 1) 0 s' =
        b.sweepFrom now date (s.gate.store.entries.size + 1) 0 s' :=
      sweepFrom_fuel now date h.1.isOpen' (by omega) (by omega)
    rw [hbound]
    exact (sweepFrom_confined now date hown _ 0).congr s s' h
  reaches := fun s a t h => (sweepFrom_confined now date hown _ 0).reaches s a t h

omit date in
theorem sweep_confined : Confined (border own) (b.sweep now) := by
  refine (Confined.ofClock now).bind fun date => ?_
  refine Confined.get_bind (sweepAll_confined now date hown) fun answer => ?_
  cases answer with
  | error e => exact Confined.pure _
  | ok swept =>
    dsimp only
    split
    · exact (confined_report _).bind fun _ => Confined.pure _
    · exact (confined_report _).bind fun _ => Confined.pure _

end Sweeping

/-- Every call of a blacklist keeps to the keys under its prefix. -/
theorem perform_confined {b : Blacklist} {own : String → Prop}
    (hown : ∀ key, Text.startsWith b.keyPrefix key = true → own key) (now : Instant) (c : Call) :
    Confined (border own) (b.perform now c) := by
  cases c with
  | add token reason ttl => exact (add_confined hown now token reason ttl).map
  | addOrLog token reason ttl => exact (addOrLog_confined hown now token reason ttl).map
  | addEach tokens reason ttl => exact (addEach_confined hown now reason ttl tokens).map
  | isRevoked token => exact (isRevoked_confined hown now token).map
  | info token => exact (info_confined hown now token).map
  | remove token => exact (remove_confined hown now token).map
  | listAll => exact (listAll_confined hown now).map
  | sweep => exact (sweep_confined now hown).map

end Bulwark.Blacklist
