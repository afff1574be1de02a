import Bulwark.Proofs.Revocation.Exchange
import Bulwark.Proofs.Revocation.Page

/-!
# Calls that do not tell two tokens apart

Every call but a lookup reports the same events in mirrored sessions, with two tokens of one mask in
each other's place: events show masks only, and an error that names a key goes back to the caller.
-/

namespace Bulwark.Blacklist

variable {x : Exchange} {scans : Prop} {b : Blacklist}

/-- Answers of the store that are equal, or errors. -/
def Alike {β : Type} : Except StoreError β → Except StoreError β → Prop
  | .ok answer, .ok answer' => answer = answer'
  | .error _, .error _ => True
  | _, _ => False

/-- Of alike answers there are two cases: two errors, or one answer. -/
theorem Agrees.bind_alike {β δ ε : Type} {c c' : Action (Except StoreError β)}
    {f : Except StoreError β → Action δ} {f' : Except StoreError β → Action ε}
    {S : δ → ε → Prop} (h : Agrees x scans c c' Alike)
    (herror : ∀ e e', Agrees x scans (f (.error e)) (f' (.error e')) S)
    (hok : ∀ answer, Agrees x scans (f (.ok answer)) (f' (.ok answer)) S) :
    Agrees x scans (c >>= f) (c' >>= f') S := by
  refine h.bind fun answer answer' halike => ?_
  match answer, answer', halike with
  | .error e, .error e', _ => exact herror e e'
  | .ok answer, .ok _, rfl => exact hok answer

/-! ## Store calls on exchanged keys -/

/-- Readings of exchanged keys are alike; only an error may name its key. -/
theorem get_agrees (now : Instant) (key : String) :
    Agrees x scans (callStore (·.get now key)) (callStore (·.get now (x.onKeys key))) Alike := by
  refine Agrees.callStore (fun _ => trivial) (fun s => ?_)
    fun s => congrArg Prod.snd (s.get_rename x.onKeys now key)
  rw [Store.get_rename, Store.get_answer]
  rcases s.visible? now key with _ | ⟨_ | _, _⟩
  · exact rfl
  · exact rfl
  · exact trivial

theorem ttl_agrees (now : Instant) (key : String) :
    Agrees x scans (callStore (·.ttl now key)) (callStore (·.ttl now (x.onKeys key))) Eq :=
  Agrees.callStore (fun _ => rfl)
    (fun s => (congrArg Prod.fst (s.ttl_rename x.onKeys now key)).symm)
    fun s => congrArg Prod.snd (s.ttl_rename x.onKeys now key)

theorem set_agrees (now : Instant) (key value : String) (ttl : Option Duration) :
    Agrees x scans (callStore (·.set now key value ttl))
      (callStore (·.set now (x.onKeys key) value ttl)) Eq :=
  Agrees.callStore (fun _ => rfl) (fun _ => rfl)
    fun s => congrArg Prod.snd (s.set_rename x.onKeys now key value ttl)

theorem delete_agrees (now : Instant) (key : String) :
    Agrees x scans (callStore (·.delete now key)) (callStore (·.delete now (x.onKeys key))) Eq :=
  Agrees.callStore (fun _ => rfl)
    (fun s => (congrArg Prod.fst (s.delete_rename x.onKeys now key)).symm)
    fun s => congrArg Prod.snd (s.delete_rename x.onKeys now key)

/-! ## Single tokens -/

theorem key_onTokens (hb : b.keyPrefix = x.keyPrefix) (token : String) :
    b.key (x.onTokens token) = x.onKeys (b.key token) := by
  unfold key
  rw [hb, x.onKeys_append]

section Single

variable (hx : x.Masked) (hb : b.keyPrefix = x.keyPrefix)
include hx hb

theorem add_agrees (now : Instant) (token reason : String) (ttlSeconds : Nat) :
    Agrees x scans (b.add now token reason ttlSeconds)
      (b.add now (x.onTokens token) reason ttlSeconds) Eq := by
  have hrejection : rejection? (x.onTokens token) reason ttlSeconds =
      rejection? token reason ttlSeconds := by
    unfold rejection?
    rw [hx.allBlank_onTokens]
  unfold add
  rw [hrejection, key_onTokens hb, hx.mask_onTokens]
  cases rejection? token reason ttlSeconds with
  | some fault => exact .pure rfl
  | none =>
    refine (Agrees.ofClock now).bind ?_
    rintro date _ rfl
    refine (set_agrees now _ _ _).bind ?_
    rintro answer _ rfl
    cases answer with
    | error e => exact .pure rfl
    | ok _ =>
      exact (Agrees.report rfl).bind fun _ _ _ => (Agrees.count _ _).bind fun _ _ _ => .pure rfl

theorem addOrLog_agrees (now : Instant) (token reason : String) (ttlSeconds : Nat) :
    Agrees x scans (b.addOrLog now token reason ttlSeconds)
      (b.addOrLog now (x.onTokens token) reason ttlSeconds) Eq := by
  unfold addOrLog
  refine (add_agrees hx hb now token reason ttlSeconds).bind ?_
  rintro answer _ rfl
  cases answer with
  | ok _ => exact .pure rfl
  | error fault =>
    rw [hx.mask_onTokens]
    exact (Agrees.report rfl).bind fun _ _ _ => .pure rfl

theorem addEach_agrees (now : Instant) (reason : String) (ttlSeconds : Nat) (tokens : List String) :
    Agrees x scans (b.addEach now reason ttlSeconds tokens)
      (b.addEach now reason ttlSeconds (tokens.map x.onTokens)) Eq := by
  induction tokens with
  | nil => exact .pure rfl
  | cons token rest ih =>
    rw [List.map_cons, addEach, addEach]
    refine (add_agrees hx hb now token reason ttlSeconds).bind ?_
    rintro answer _ rfl
    have hrest : ∀ n, Agrees x scans (do return n + (← b.addEach now reason ttlSeconds rest))
        (do return n + (← b.addEach now reason ttlSeconds (rest.map x.onTokens))) Eq :=
      fun n => ih.map fun _ _ h => congrArg (n + ·) h
    cases answer with
    | ok _ =>
      refine (Agrees.pure (R := Eq) rfl).bind ?_
      rintro n _ rfl
      exact hrest n
    | error fault =>
      rw [hx.mask_onTokens]
      refine (Agrees.report rfl).bind fun _ _ _ => (Agrees.pure (R := Eq) rfl).bind ?_
      rintro n _ rfl
      exact hrest n

theorem remove_agrees (now : Instant) (token : String) :
    Agrees x scans (b.remove now token) (b.remove now (x.onTokens token)) Eq := by
  unfold remove
  rw [hx.allBlank_onTokens, key_onTokens hb, hx.mask_onTokens]
  split
  · exact .pure rfl
  · refine (delete_agrees now _).bind ?_
    rintro answer _ rfl
    match answer with
    | .error e => exact .pure rfl
    | .ok false => exact .pure rfl
    | .ok true =>
      exact (Agrees.report rfl).bind fun _ _ _ => (Agrees.count _ _).bind fun _ _ _ => .pure rfl

theorem info_agrees (now : Instant) (token : String) :
    Agrees x scans (b.info now token) (b.info now (x.onTokens token)) fun _ _ => True := by
  unfold info
  rw [hx.allBlank_onTokens, key_onTokens hb, hx.mask_onTokens]
  split
  · exact .pure trivial
  · refine (get_agrees now (b.key token)).bind_alike (fun _ _ => .pure trivial) fun answer => ?_
    cases answer with
    | none => exact .pure trivial
    | some text =>
      simp only []
      split
      · exact .pure trivial
      · refine (Agrees.ofClock now).bind ?_
        rintro date _ rfl
        split
        · exact .pure trivial
        · refine (ttl_agrees now (b.key token)).bind ?_
          rintro answer _ rfl
          split
          · exact .pure trivial
          · exact .pure trivial
          · exact .pure trivial

end Single

/-! ## Walks -/

/-- Answers with keys that are exchanged, or errors. -/
def AlikePages (x : Exchange) :
    Except StoreError (Nat × List String) → Except StoreError (Nat × List String) → Prop
  | .ok (next, keys), .ok (next', keys') => next' = next ∧ keys' = keys.map x.onKeys
  | .error e, .error e' => e = e'
  | _, _ => False

theorem scanPage_agrees (hb : b.keyPrefix = x.keyPrefix) (hscans : scans) (now : Instant)
    (cursor : Nat) :
    Agrees x scans (b.scanPage now cursor) (b.scanPage now cursor) (AlikePages x) := by
  intro s s' hgate hevents
  have hscan := Store.scan_rename x.onKeys s.gate.store now (hgate.position_eq hscans)
    (hgate.position_injective hscans) (hb ▸ x.startsWith_onKeys) cursor pageSize
  have hcall : x.Mirrored scans
        (s.gate.call fun t => t.scan s.gate.position now b.keyPrefix cursor pageSize).2
        (s'.gate.call fun t => t.scan s'.gate.position now b.keyPrefix cursor pageSize).2 ∧
      AlikePages x
        (s.gate.call fun t => t.scan s.gate.position now b.keyPrefix cursor pageSize).1
        (s'.gate.call fun t => t.scan s'.gate.position now b.keyPrefix cursor pageSize).1 := by
    refine hgate.call (fun _ => rfl) ?_ ?_
    · rw [hgate.store_eq, hscan]
      exact ⟨rfl, rfl⟩
    · rw [hgate.store_eq, hscan]
      rfl
  exact ⟨hcall.1, hevents, hcall.2⟩

theorem listFrom_agrees (hb : b.keyPrefix = x.keyPrefix) (hscans : scans) (now : Instant)
    (fuel : Nat) :
    ∀ (cursor : Nat) (seen seen' : List String),
      Agrees x scans (b.listFrom now fuel cursor seen) (b.listFrom now fuel cursor seen')
        fun _ _ => True := by
  induction fuel with
  | zero => exact fun _ _ _ => .pure trivial
  | succ fuel ih =>
    intro cursor seen seen'
    rw [listFrom_succ, listFrom_succ]
    refine (scanPage_agrees hb hscans now cursor).bind ?_
    intro answer answer' halike
    match answer, answer', halike with
    | .error e, .error _, rfl => exact (Agrees.report rfl).bind fun _ _ _ => .pure trivial
    | .ok (next, keys), .ok (_, _), ⟨rfl, rfl⟩ =>
      unfold listPage
      simp only []
      split
      · exact .pure trivial
      · exact ih _ _ _

theorem listAll_agrees (hb : b.keyPrefix = x.keyPrefix) (hscans : scans) (now : Instant) :
    Agrees x scans (b.listAll now) (b.listAll now) fun _ _ => True := by
  refine Agrees.get.bind fun s s' hgate => ?_
  rw [hgate.size_eq]
  exact listFrom_agrees hb hscans now _ 0 [] []

theorem isStale_agrees (now : Instant) (date : Timestamp) (key : String) :
    Agrees x scans (isStale now date key) (isStale now date (x.onKeys key)) Alike := by
  unfold isStale
  refine (get_agrees now key).bind_alike (fun _ _ => .pure trivial) fun answer => ?_
  cases answer with
  | none => exact .pure rfl
  | some text =>
    simp only []
    split
    · exact .pure rfl
    · split
      · refine (ttl_agrees now key).bind ?_
        rintro answer _ rfl
        cases answer with
        | error e => exact .pure trivial
        | ok ttl => exact .pure rfl
      · exact .pure rfl

theorem sweepKey_agrees (now : Instant) (date : Timestamp) (key : String) :
    Agrees x scans (sweepKey now date key) (sweepKey now date (x.onKeys key)) Alike := by
  unfold sweepKey
  refine (isStale_agrees now date key).bind_alike (fun _ _ => .pure trivial) fun stale => ?_
  cases stale with
  | false => exact .pure rfl
  | true =>
    refine (delete_agrees now key).bind ?_
    rintro answer _ rfl
    match answer with
    | .error e => exact .pure trivial
    | .ok false => exact .pure rfl
    | .ok true => exact (Agrees.count _ _).bind fun _ _ _ => .pure rfl

theorem sweepKeys_agrees (now : Instant) (date : Timestamp) (keys : List String) :
    Agrees x scans (sweepKeys now date keys) (sweepKeys now date (keys.map x.onKeys)) Alike := by
  induction keys with
  | nil => exact .pure rfl
  | cons key rest ih =>
    rw [List.map_cons, sweepKeys, sweepKeys]
    refine (sweepKey_agrees now date key).bind_alike (fun _ _ => .pure trivial) fun n => ?_
    exact ih.bind_alike (fun _ _ => .pure trivial) fun m => .pure rfl

theorem sweepFrom_agrees (hb : b.keyPrefix = x.keyPrefix) (hscans : scans) (now : Instant)
    (date : Timestamp) (fuel : Nat) :
    ∀ cursor, Agrees x scans (b.sweepFrom now date fuel cursor) (b.sweepFrom now date fuel cursor)
      Alike := by
  induction fuel with
  | zero => exact fun _ => .pure rfl
  | succ fuel ih =>
    intro cursor
    rw [sweepFrom_succ]
    refine (scanPage_agrees hb hscans now cursor).bind ?_
    intro answer answer' halike
    match answer, answer', halike with
    | .error _, .error _, _ => exact .pure trivial
    | .ok (next, keys), .ok (_, _), ⟨rfl, rfl⟩ =>
      refine (sweepKeys_agrees now date keys).bind_alike (fun _ _ => .pure trivial) fun n => ?_
      simp only []
      split
      · exact .pure rfl
      · exact (ih next).bind_alike (fun _ _ => .pure trivial) fun m => .pure rfl

theorem sweep_agrees (hb : b.keyPrefix = x.keyPrefix) (hscans : scans) (now : Instant) :
    Agrees x scans (b.sweep now) (b.sweep now) fun _ _ => True := by
  unfold sweep
  refine (Agrees.ofClock now).bind ?_
  rintro date _ rfl
  refine Agrees.get.bind fun s s' hgate => ?_
  rw [hgate.size_eq]
  refine (sweepFrom_agrees hb hscans now date _ 0).bind_alike (fun _ _ => .pure trivial)
    fun swept => ?_
  simp only []
  split
  · exact (Agrees.report rfl).bind fun _ _ _ => .pure trivial
  · exact (Agrees.report rfl).bind fun _ _ _ => .pure trivial

end Bulwark.Blacklist
