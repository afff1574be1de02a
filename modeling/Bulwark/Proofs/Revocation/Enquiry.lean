import Bulwark.Proofs.Revocation.Sweep

/-!
# Lookups and enquiries agree

A lookup answers whether a token is revoked; an enquiry gives the entry, and asks the store a second
time for the lifetime that is left.  The two decide on their own what to make of the key, yet both
go by one observation: what the first reading of the key has found (`Finding`).  `isRevoked_finds`
and `info_finds` tell their answers from it, so they cannot contradict each other
(`info_consistent`).

The failure mode decides only where the first reading fails.  A lifetime that cannot be asked for
spoils the enquiry and not the lookup.
-/

namespace Bulwark.Blacklist

/-! ## What is found -/

/-- What the first reading of the key of a token has found. -/
inductive Finding where
  /-- A blank token is not looked for. -/
  | blank
  /-- The reading has failed, before the store was asked or at a hash. -/
  | failed (e : StoreError)
  | absent
  /-- A text that is no entry. -/
  | garbled
  /-- An entry whose lifetime is over. -/
  | lapsed
  /-- An entry whose lifetime is not over, under a key with or without a deadline. -/
  | valid (entry : BlacklistEntry) (deadline : Option Instant)

/-- What there is to be found under a key, for who reads a text there. -/
def findingAt (now : Instant) (key : String) : Option StoredEntry → Finding
  | none => .absent
  | some ⟨.hash _, _⟩ => .failed (Store.wrongType key)
  | some ⟨.text text, deadline⟩ => match BlacklistEntry.read? text with
    | none => .garbled
    | some entry => if entry.isExpiredAt now.date then .lapsed else .valid entry deadline

/-- What a blacklist finds for a token. -/
def findingOf (b : Blacklist) (now : Instant) (g : Gate) (token : String) : Finding :=
  if Text.allBlank token then .blank
  else match g.refusal? with
    | some e => .failed e
    | none => findingAt now (b.key token) (g.store.visible? now (b.key token))

namespace Finding

/-- The answer to a lookup. -/
def isRevoked (mode : FailureMode) : Finding → Bool
  | blank => false
  | failed _ => mode.revokedOnError
  | absent => false
  | garbled => true
  | lapsed => false
  | valid _ _ => true

/-- The error of a text that is no entry, up to the masked token: the decoder's own account of what
is wrong with the text, which follows there after a colon, is left out as in `Blacklist.info`. -/
def undecodable (token : String) : Fault :=
  .store (.protocol ("undecodable blacklist entry for " ++ maskToken token))

/-- The answer to an enquiry, by the error that refuses its second store call, if one does. -/
def info (now : Instant) (token : String) (refusal : Option StoreError) :
    Finding → Except Fault (Option RevocationInfo)
  | blank => .ok none
  | failed e => .error (.store e)
  | absent => .ok none
  | garbled => .error (undecodable token)
  | lapsed => .ok none
  | valid entry deadline => match refusal with
    | some e => .error (.store e)
    | none => .ok (some ⟨entry, deadline.map now.timeTo⟩)

end Finding

/-! ## Two ways to use it -/

/-- What a call answers, if it ends with this answer. -/
theorem Ends.map_fst {β : Type} {x : Action β} {s : Session} {value : β}
    (h : Ends x s fun answer _ => answer = value) : (x s).map Prod.fst = .ok value := by
  obtain ⟨_, t, hx, rfl⟩ := h
  rw [hx]
  rfl

section Answers

variable {b : Blacklist} {now : Instant} {token : String} {s : Session}

/-- What can be seen under a key decides a lookup through what is found there. -/
theorem lookupAnswer_eq (hnow : Timestamp.inRange now.second = true) (mode : FailureMode)
    (key : String) (e : Option StoredEntry) :
    lookupAnswer mode now e = .ok ((findingAt now key e).isRevoked mode) := by
  rcases e with _ | ⟨text | fields, deadline⟩
  · rfl
  · have hdate : Timestamp.ofInstant? now = some now.date := if_pos hnow
    unfold lookupAnswer findingAt
    dsimp only
    cases BlacklistEntry.read? text with
    | none => rfl
    | some entry =>
      by_cases hexpired : entry.isExpiredAt now.date = true <;>
        simp [hdate, hexpired, Finding.isRevoked]
  · rfl

/-- A lookup goes by what is found. -/
theorem isRevoked_finds (hnow : Timestamp.inRange now.second = true) :
    (b.isRevoked now token s).map Prod.fst =
      .ok ((findingOf b now s.gate token).isRevoked b.failureMode) := by
  rw [isRevoked_answer]
  unfold findingOf
  split
  · rfl
  · cases s.gate.refusal? with
    | some e => rfl
    | none => exact lookupAnswer_eq hnow _ _ _

/-- An enquiry goes by what is found, and by whether the gate lets its second call pass. -/
theorem info_finds (hnow : Timestamp.inRange now.second = true) :
    (b.info now token s).map Prod.fst =
      .ok ((findingOf b now s.gate token).info now token s.gate.next.refusal?) := by
  refine Ends.map_fst ?_
  unfold info findingOf
  by_cases hblank : Text.allBlank token = true
  · simp only [hblank, if_true]
    exact Ends.pure rfl
  simp only [hblank, if_false, Bool.false_eq_true]
  refine Ends.bind (Ends.callStore_gate ?_ ?_)
  · intro e hrefusal
    rw [hrefusal]
    exact Ends.pure rfl
  · intro hpass
    rw [hpass]
    rcases hvisible : s.gate.store.visible? now (b.key token) with _ | ⟨text | fields, deadline⟩
    · rw [Store.get_answer, hvisible]
      exact Ends.pure rfl
    · rw [Store.get_of_text hvisible]
      dsimp only [findingAt]
      cases BlacklistEntry.read? text with
      | none => exact Ends.pure rfl
      | some entry =>
        refine Ends.bind (Ends.ofClock_of_inRange hnow ?_)
        by_cases hexpired : entry.isExpiredAt now.date = true
        · simp only [hexpired, if_true]
          exact Ends.pure rfl
        simp only [hexpired, if_false, Bool.false_eq_true]
        -- the second call finds the store as the first one did
        refine Ends.bind (Ends.callStore_gate ?_ ?_)
        · intro e hrefusal
          have hsecond : s.gate.next.refusal? = some e := hrefusal
          rw [hsecond]
          exact Ends.pure rfl
        · intro hpass
          have hsecond : s.gate.next.refusal? = none := hpass
          rw [hsecond]
          dsimp only
          rw [Store.ttl_of_visible hvisible]
          cases deadline with
          | none => exact Ends.pure rfl
          | some limit => exact Ends.pure rfl
    · rw [Store.get_of_hash hvisible]
      exact Ends.pure rfl

/-! ## What the first reading answers -/

/-- A finding, and what the first reading of the key and the entry to be seen there have to do with
it. -/
inductive Explains (token : String) (e : Option StoredEntry)
    (read : Except StoreError (Option String)) : Finding → Prop
  | blank : Text.allBlank token = true → Explains token e read .blank
  | failed {error : StoreError} : Text.allBlank token = false → read = .error error →
      Explains token e read (.failed error)
  | absent : Text.allBlank token = false → read = .ok none → Explains token e read .absent
  | garbled {text : String} : Text.allBlank token = false → read = .ok (some text) →
      BlacklistEntry.read? text = none → Explains token e read .garbled
  | lapsed {text : String} {entry : BlacklistEntry} : Text.allBlank token = false →
      read = .ok (some text) → BlacklistEntry.read? text = some entry →
      Explains token e read .lapsed
  | valid {text : String} {entry : BlacklistEntry} {deadline : Option Instant} :
      Text.allBlank token = false → read = .ok (some text) →
      BlacklistEntry.read? text = some entry → e = some ⟨.text text, deadline⟩ →
      Explains token e read (.valid entry deadline)

/-- What a blacklist finds is explained by the first reading. -/
theorem explains_findingOf (b : Blacklist) (now : Instant) (token : String) (g : Gate) :
    Explains token (g.store.visible? now (b.key token)) (g.call (·.get now (b.key token))).1
      (findingOf b now g token) := by
  unfold findingOf
  by_cases hblank : Text.allBlank token = true
  · rw [if_pos hblank]
    exact .blank hblank
  rw [if_neg hblank, Gate.call_eq]
  rw [Bool.not_eq_true] at hblank
  cases g.refusal? with
  | some e => exact .failed hblank rfl
  | none =>
    dsimp only
    rw [Store.get_answer]
    rcases g.store.visible? now (b.key token) with _ | ⟨text | fields, deadline⟩
    · exact .absent hblank rfl
    · unfold findingAt
      dsimp only
      cases hread : BlacklistEntry.read? text with
      | none => exact .garbled hblank rfl hread
      | some entry =>
        by_cases hexpired : entry.isExpiredAt now.date = true
        · simp only [hexpired, if_true]
          exact .lapsed hblank rfl hread
        · simp only [hexpired, if_false, Bool.false_eq_true]
          exact .valid hblank rfl hread rfl
    · exact .failed hblank rfl

end Answers

/-! ## Agreement -/

/-- The answers of an enquiry and of a lookup do not contradict each other, where the first reading
of the key has given `read` and an entry that can be seen there is `e`. -/
structure Consistent (b : Blacklist) (token : String) (e : Option StoredEntry)
    (read : Except StoreError (Option String)) (answer : Except Fault (Option RevocationInfo))
    (revoked : Bool) : Prop where
  /-- A token with an entry is revoked. -/
  revoked_of_found : ∀ found, answer = .ok (some found) → revoked = true
  /-- A token without one is not. -/
  not_revoked_of_none : answer = .ok none → revoked = false
  /-- A text that is no entry counts as a revocation. -/
  garbled : Text.allBlank token = false → ∀ text, read = .ok (some text) →
    BlacklistEntry.read? text = none → answer = .error (Finding.undecodable token) ∧ revoked = true
  /-- Where the first reading fails, the failure mode decides. -/
  failed : Text.allBlank token = false → ∀ error, read = .error error →
    answer = .error (.store error) ∧ revoked = b.failureMode.revokedOnError
  /-- An enquiry fails for these two reasons, or because the second call does after an entry has
  been found. -/
  why_failed : ∀ fault, answer = .error fault → Text.allBlank token = false ∧
    ((∃ error, read = .error error) ∨
      (∃ text, read = .ok (some text) ∧ BlacklistEntry.read? text = none) ∨
      (∃ text entry, read = .ok (some text) ∧ BlacklistEntry.read? text = some entry) ∧
        revoked = true)
  /-- The lifetime that is left is some time. -/
  remaining_pos : ∀ found, answer = .ok (some found) → ∀ d, found.remaining = some d → 0 < d.nanos
  /-- It is missing if and only if the key has no deadline. -/
  remaining_eq_none_iff : ∀ found, answer = .ok (some found) →
    ∃ stored, e = some stored ∧ (found.remaining = none ↔ stored.deadline = none)

/-- What is visible under a key with a deadline has some time left. -/
theorem timeTo_pos {now limit : Instant} {key : String} {value : StoredValue} {store : Store}
    (h : store.visible? now key = some ⟨value, some limit⟩) : 0 < (now.timeTo limit).nanos := by
  have hlive := (Store.visible?_eq_some_iff.mp h).2
  have hlt : now.nanos < limit.nanos := of_decide_eq_true hlive
  show 0 < (limit.nanos - now.nanos).toNat
  omega

/-- **Lookups and enquiries agree.**  At every reading of the clock that has a date, whatever the
store holds and whichever of its calls fail, an enquiry and a lookup made in the same state both
end, and do not contradict each other. -/
theorem info_consistent (b : Blacklist) (now : Instant) (token : String) (s : Session)
    (hnow : Timestamp.inRange now.second = true) :
    ∃ answer revoked, (b.info now token s).map Prod.fst = .ok answer ∧
      (b.isRevoked now token s).map Prod.fst = .ok revoked ∧
      Consistent b token (s.gate.store.visible? now (b.key token))
        (s.gate.call (·.get now (b.key token))).1 answer revoked := by
  refine ⟨_, _, info_finds hnow, isRevoked_finds hnow, ?_⟩
  have hwhy := explains_findingOf b now token s.gate
  generalize findingOf b now s.gate token = finding at hwhy
  generalize hread : (s.gate.call (·.get now (b.key token))).1 = read at hwhy
  cases hwhy with
  | blank hblank => constructor <;> simp [Finding.info, Finding.isRevoked, hblank]
  | failed hblank hfailed =>
    subst hfailed
    constructor <;> simp [Finding.info, Finding.isRevoked, hblank]
  | absent hblank hnone =>
    subst hnone
    constructor <;> simp [Finding.info, Finding.isRevoked]
  | garbled hblank htext hgarbled =>
    subst htext
    constructor <;> simp [Finding.info, Finding.isRevoked, hblank, hgarbled]
  | lapsed hblank htext hentry =>
    subst htext
    constructor <;> simp [Finding.info, Finding.isRevoked, hentry]
  | valid hblank htext hentry hvisible =>
    subst htext
    cases s.gate.next.refusal? with
    | some e => constructor <;> simp [Finding.info, Finding.isRevoked, hblank, hentry]
    | none =>
      constructor
      case remaining_pos =>
        rintro found ⟨⟩ d hd
        obtain ⟨limit, rfl, rfl⟩ := Option.map_eq_some_iff.mp hd
        exact timeTo_pos hvisible
      all_goals simp [Finding.info, Finding.isRevoked, hblank, hentry, hvisible]

/-- An entry a nanosecond before it lapses, under a key that is held for half a minute longer. -/
theorem info_consistent_leased :
    let b : Blacklist := ⟨"bl:", .failSafe⟩
    let now : Instant := ⟨59999999999⟩
    let s : Session := ⟨.opened String.length staleAndFresh, .zero, []⟩
    let e : BlacklistEntry := .of ⟨0 * nanosPerSecond⟩ "stolen" 60
    Timestamp.inRange now.second = true ∧
    (b.info now "leased" s).map Prod.fst = .ok (.ok (some ⟨e, some ⟨30000000001⟩⟩)) ∧
    (b.isRevoked now "leased" s).map Prod.fst = .ok true := by
  intro b now s e
  have hnow : Timestamp.inRange now.second = true := by decide
  have hvisible : s.gate.store.visible? now (b.key "leased") =
      some ⟨.text e.render, some ⟨90 * nanosPerSecond⟩⟩ := rfl
  have hread : BlacklistEntry.read? e.render = some e :=
    BlacklistEntry.read?_render_of ⟨by decide, by decide⟩ (by decide)
  have hfound : findingOf b now s.gate "leased" = .valid e (some ⟨90 * nanosPerSecond⟩) := by
    unfold findingOf
    rw [if_neg (by decide), show s.gate.refusal? = none from rfl, hvisible]
    simp only [findingAt, hread]
    exact if_neg (by decide)
  have hinfo : (b.info now "leased" s).map Prod.fst =
      .ok ((findingOf b now s.gate "leased").info now "leased" s.gate.next.refusal?) :=
    info_finds hnow
  rw [hfound] at hinfo
  obtain ⟨_, revoked, hanswer, hrevoked, hconsistent⟩ := info_consistent b now "leased" s hnow
  refine ⟨hnow, hinfo, ?_⟩
  obtain rfl := Except.ok.inj (hanswer.symm.trans hinfo)
  rw [hrevoked, hconsistent.revoked_of_found _ rfl]

end Bulwark.Blacklist
