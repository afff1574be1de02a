import Bulwark.Proofs.Revocation.Entry
import Bulwark.Proofs.Store.Visible

/-!
# Stores that reflect revocations

A history of revocations is a list of mutations: a token was revoked at a moment for a time, or its
revocation was lifted.  What counts for a token is its last mutation (`lastOf?`), and the token is
revoked as long as that is a revocation whose time is not over (`isRevokedBy`).

`Reflects` says that readers see in a store exactly the entries of these last mutations.  It is kept
by time, by a revocation and by a lifting, and it rests on the agreement of the two ways in which
an entry lapses.
-/

namespace Bulwark.Blacklist

/-- A change of the revocations. -/
inductive Mutation where
  | revoke (token reason : String) (since : Instant) (ttlSeconds : Nat)
  | lift (token : String)

namespace Mutation

/-- The token that is revoked or no longer revoked. -/
def token : Mutation → String
  | revoke token _ _ _ => token
  | lift token => token

/-- Whether the mutation is a revocation whose time is not over. -/
def isInForce (now : Instant) : Mutation → Bool
  | revoke _ _ since ttlSeconds => now.nanos < since.nanos + ttlSeconds * nanosPerSecond
  | lift _ => false

/-- What a store keeps after the mutation. -/
def kept? : Mutation → Option StoredEntry
  | revoke _ reason since ttlSeconds =>
    some ⟨.text (BlacklistEntry.of since reason ttlSeconds).render,
      since.later? (.ofSeconds ttlSeconds)⟩
  | lift _ => none

/-- A revocation was made at a moment that has a date, for a time that fits into 64 bits. -/
def Sound : Mutation → Prop
  | revoke _ _ since ttlSeconds => since.IsDated ∧ ttlSeconds ≤ Text.maxUnsigned
  | lift _ => True

end Mutation

/-- The last mutation of a token. -/
def lastOf? (ms : List Mutation) (token : String) : Option Mutation :=
  ms.reverse.find? (·.token = token)

/-- Whether a token is revoked after mutations: the last of its mutations is a revocation whose time
is not over. -/
def isRevokedBy (ms : List Mutation) (token : String) (now : Instant) : Bool :=
  (lastOf? ms token).any (·.isInForce now)

variable {ms : List Mutation} {token : String} {now t : Instant}

theorem lastOf?_append_singleton (ms : List Mutation) (m : Mutation) (token : String) :
    lastOf? (ms ++ [m]) token = if m.token = token then some m else lastOf? ms token := by
  unfold lastOf?
  rw [List.reverse_append, List.reverse_singleton, List.singleton_append, List.find?_cons]
  by_cases h : m.token = token
  · rw [if_pos h]
    simp only [h, decide_true]
  · rw [if_neg h]
    simp only [h, decide_false]

theorem mem_of_lastOf? {m : Mutation} (h : lastOf? ms token = some m) : m ∈ ms :=
  List.mem_reverse.mp (List.mem_of_find?_eq_some h)

theorem token_of_lastOf? {m : Mutation} (h : lastOf? ms token = some m) : m.token = token := by
  unfold lastOf? at h
  have htest := List.find?_some h
  exact of_decide_eq_true htest

/-- A token is revoked if its last mutation is a revocation whose time is not over. -/
theorem isRevokedBy_iff : isRevokedBy ms token now = true ↔ ∃ reason since ttlSeconds,
    lastOf? ms token = some (.revoke token reason since ttlSeconds) ∧
      now.nanos < since.nanos + ttlSeconds * nanosPerSecond := by
  unfold isRevokedBy
  constructor
  · intro h
    obtain ⟨m, hlast, hforce⟩ := (Option.any_eq_true _ _).mp h
    have htoken := token_of_lastOf? hlast
    cases m with
    | revoke _ reason since ttlSeconds =>
      obtain rfl : _ = token := htoken
      exact ⟨reason, since, ttlSeconds, hlast, of_decide_eq_true hforce⟩
    | lift _ => exact absurd hforce Bool.false_ne_true
  · rintro ⟨reason, since, ttlSeconds, hlast, hforce⟩
    rw [hlast]
    exact decide_eq_true hforce

/-- The entry that a store keeps for a token after mutations. -/
def entryOf? (ms : List Mutation) (token : String) : Option StoredEntry :=
  (lastOf? ms token).bind (·.kept?)

/-- Readers of a store see under a prefix what mutations have left there. -/
structure Reflects (keyPrefix : String) (ms : List Mutation) (now : Instant) (s : Store) :
    Prop where
  visible?_eq : ∀ token,
    s.visible? now (keyPrefix ++ token) = (entryOf? ms token).filter (·.isLive now)
  sound : ∀ m ∈ ms, m.Sound

namespace Reflects

variable {keyPrefix : String} {s s' : Store}

/-- A store that holds nothing under a prefix reflects no mutations. -/
theorem of_absent (h : ∀ token, s.entries.get? (keyPrefix ++ token) = none) :
    Reflects keyPrefix [] now s where
  visible?_eq token := Store.visible?_of_absent (h token)
  sound _ hm := absurd hm List.not_mem_nil

/-- A store that looks the same under the prefix reflects the same mutations. -/
theorem congr (h : Reflects keyPrefix ms now s)
    (hsame : ∀ token, s'.visible? now (keyPrefix ++ token) = s.visible? now (keyPrefix ++ token)) :
    Reflects keyPrefix ms now s' where
  visible?_eq token := (hsame token).trans (h.visible?_eq token)
  sound := h.sound

/-- Time changes nothing but what is live. -/
theorem later (h : Reflects keyPrefix ms now s) (hle : now ≤ t) : Reflects keyPrefix ms t s where
  visible?_eq token := by
    rw [Store.visible?_later hle, h.visible?_eq, Store.filter_isLive_later hle]
  sound := h.sound

/-- What readers see of a token: an entry that can be read and has not lapsed if it is revoked, and
nothing otherwise. -/
theorem visible?_cases (h : Reflects keyPrefix ms now s) (hnow : now.IsDated) (token : String) :
    (s.visible? now (keyPrefix ++ token) = none ∧ isRevokedBy ms token now = false) ∨
    ∃ entry deadline, s.visible? now (keyPrefix ++ token) = some ⟨.text entry.render, deadline⟩ ∧
      BlacklistEntry.read? entry.render = some entry ∧ entry.isExpiredAt now.date = false ∧
      isRevokedBy ms token now = true := by
  rw [h.visible?_eq]
  unfold isRevokedBy entryOf?
  cases hlast : lastOf? ms token with
  | none => exact .inl ⟨rfl, rfl⟩
  | some m =>
    cases m with
    | lift _ => exact .inl ⟨rfl, rfl⟩
    | revoke _ reason since ttlSeconds =>
      obtain ⟨hsince, httl⟩ := h.sound _ (mem_of_lastOf? hlast)
      have hlive := @BlacklistEntry.isLive_deadline_iff since now ttlSeconds hsince.inRange hnow
        (.text (BlacklistEntry.of since reason ttlSeconds).render)
      have hexpired := @BlacklistEntry.isExpiredAt_iff since now reason ttlSeconds
        hsince.inRange hnow
      show ((some _ : Option StoredEntry).filter _ = none ∧ decide _ = false) ∨ _
      -- the deadline and the date of the entry are the same bound on the clock
      by_cases hforce : now.nanos < since.nanos + ttlSeconds * nanosPerSecond
      · refine .inr ⟨BlacklistEntry.of since reason ttlSeconds,
          since.later? (.ofSeconds ttlSeconds), ?_, BlacklistEntry.read?_render_of hsince httl, ?_,
          decide_eq_true hforce⟩
        · exact Option.filter_some.trans (if_pos (hlive.mpr hforce))
        · rw [← Bool.not_eq_true, hexpired]
          omega
      · refine .inl ⟨?_, decide_eq_false hforce⟩
        rw [Option.filter_some, if_neg fun hl => hforce (hlive.mp hl)]

/-- A store in which one key has become what a mutation leaves there reflects that mutation too. -/
theorem append (h : Reflects keyPrefix ms now s) {m : Mutation} (hm : m.Sound)
    (hsame : ∀ token, s'.visible? now (keyPrefix ++ token) =
      if token = m.token then m.kept?.filter (·.isLive now)
      else s.visible? now (keyPrefix ++ token)) : Reflects keyPrefix (ms ++ [m]) now s' where
  visible?_eq token := by
    rw [hsame, entryOf?, lastOf?_append_singleton]
    -- the new mutation is the last one of its own token only
    by_cases htoken : token = m.token
    · rw [if_pos htoken, if_pos htoken.symm]
      rfl
    · rw [if_neg htoken, if_neg (Ne.symm htoken), h.visible?_eq]
      rfl
  sound m' hm' := by
    rcases List.mem_append.mp hm' with hm' | hm'
    · exact h.sound m' hm'
    · rw [List.mem_singleton.mp hm']
      exact hm

/-- A revocation that is written is reflected. -/
theorem set (h : Reflects keyPrefix ms now s) (hnow : now.IsDated) {ttlSeconds : Nat}
    (httl : ttlSeconds ≤ Text.maxUnsigned) (token reason : String) :
    Reflects keyPrefix (ms ++ [.revoke token reason now ttlSeconds]) now
      (s.set now (keyPrefix ++ token) (BlacklistEntry.of now reason ttlSeconds).render
        (some (.ofSeconds ttlSeconds))).2 := by
  refine h.append (m := .revoke token reason now ttlSeconds) ⟨hnow, httl⟩ fun other => ?_
  rw [Store.visible?_set]
  simp only [String.append_right_inj]
  rfl

/-- A lifting that is carried out is reflected. -/
theorem delete (h : Reflects keyPrefix ms now s) (token : String) :
    Reflects keyPrefix (ms ++ [.lift token]) now (s.delete now (keyPrefix ++ token)).2 := by
  refine h.append (m := .lift token) trivial fun other => ?_
  rw [Store.visible?_delete]
  simp only [String.append_right_inj]
  rfl

/-- Deleting what nobody sees changes nothing. -/
theorem delete_of_not_visible (h : Reflects keyPrefix ms now s) {token : String}
    (hnone : s.visible? now (keyPrefix ++ token) = none) :
    Reflects keyPrefix ms now (s.delete now (keyPrefix ++ token)).2 := by
  refine h.congr fun other => ?_
  rw [Store.visible?_delete]
  split
  · rename_i heq
    rw [heq, hnone]
  · rfl

end Reflects
end Bulwark.Blacklist
