import Bulwark.Proofs.Revocation.Persistence
import Bulwark.Revocation.Batch

/-!
# Writes of a batch

The writes of a batch all put the same entry under their keys, so it does not matter in which order
they come.  `Written` tells what they leave from their answers alone, as a bag: the keys whose write
has worked hold the entry, and the others hold what they held; the store was called once for each
token that is due, and as many writes have worked as the gate lets pass of these calls.  One more
write is one more answer (`Written.write`).
-/

namespace Bulwark.Blacklist

/-- The tokens of a batch that are to be revoked. -/
def dueTokens (reason : String) (ttlSeconds : ℕ) (tokens : List String) : List String :=
  if Text.allBlank reason || ttlSeconds = 0 then []
  else tokens.filter fun token => !Text.allBlank token

/-- Whether a token of a batch is to be revoked. -/
def isDue (reason : String) (ttlSeconds : ℕ) (token : String) : Bool :=
  (rejection? token reason ttlSeconds).isNone

/-- The tokens whose revocations have worked. -/
def worked (answers : List (String × Except Fault Unit)) : List String :=
  (answers.filter (·.2.isOk)).map Prod.fst

/-- After writes with these answers there is this gate. -/
structure Written (b : Blacklist) (now : Instant) (reason : String) (ttlSeconds : ℕ) (g : Gate)
    (answers : List (String × Except Fault Unit)) (g' : Gate) : Prop where
  /-- Every token that is due has made one store call. -/
  gate : g' = { Gate.next^[answers.countP fun a => isDue reason ttlSeconds a.1] g with
    store := g'.store }
  /-- A token that is not due is rejected. -/
  rejected : ∀ a ∈ answers, ∀ fault, rejection? a.1 reason ttlSeconds = some fault →
    a.2 = .error fault
  /-- The clock's reading has had a date. -/
  dated : ∀ a ∈ answers, isDue reason ttlSeconds a.1 = true → Timestamp.inRange now.second = true
  /-- A write has worked if and only if the gate has let its call pass. -/
  passed : answers.countP (·.2.isOk) =
    (List.range (answers.countP fun a => isDue reason ttlSeconds a.1)).countP
      fun i => (Gate.next^[i] g).refusal?.isNone
  stored : ∀ key, g'.store.entries.get? key =
    if key ∈ (worked answers).map b.key then some (storedFor now reason ttlSeconds)
    else g.store.entries.get? key

section Writes

variable {b : Blacklist} {now : Instant} {reason : String} {ttlSeconds : ℕ} {g g' : Gate}
  {answers answers' : List (String × Except Fault Unit)} {s : Session}

theorem isDue_iff {token : String} : isDue reason ttlSeconds token = true ↔
    Text.allBlank token = false ∧ Text.allBlank reason = false ∧ ttlSeconds ≠ 0 := by
  unfold isDue rejection?
  split
  · simp [*]
  · split
    · simp [*]
    · split <;> simp [*]

/-- The tokens that are due are those that are not rejected. -/
theorem dueTokens_eq (tokens : List String) :
    dueTokens reason ttlSeconds tokens = tokens.filter (isDue reason ttlSeconds) := by
  unfold dueTokens
  split
  · rename_i hnone
    refine (List.filter_eq_nil_iff.mpr fun token _ hdue => ?_).symm
    obtain ⟨-, hreason, httl⟩ := isDue_iff.mp hdue
    simp [hreason, httl] at hnone
  · rename_i hsome
    have hsome : Text.allBlank reason = false ∧ ttlSeconds ≠ 0 := by simpa using hsome
    refine List.filter_congr fun token _ => ?_
    rw [Bool.eq_iff_iff, isDue_iff, Bool.not_eq_true']
    exact (and_iff_left hsome).symm

theorem length_worked : (worked answers).length = answers.countP (·.2.isOk) := by
  rw [worked, List.length_map, List.countP_eq_length_filter]

/-- Nothing has been written. -/
theorem written_nil (b : Blacklist) (now : Instant) (reason : String) (ttlSeconds : ℕ) (g : Gate) :
    Written b now reason ttlSeconds g [] g where
  gate := rfl
  rejected := nofun
  dated := nofun
  passed := rfl
  stored _ := rfl

/-- The order of the answers does not matter. -/
theorem Written.perm (h : Written b now reason ttlSeconds g answers g')
    (hperm : answers.Perm answers') : Written b now reason ttlSeconds g answers' g' where
  gate := by
    rw [← hperm.countP_eq]
    exact h.gate
  rejected a ha := h.rejected a (hperm.mem_iff.mpr ha)
  dated a ha := h.dated a (hperm.mem_iff.mpr ha)
  passed := by
    rw [← hperm.countP_eq, ← hperm.countP_eq]
    exact h.passed
  stored key := by
    rw [h.stored key]
    exact if_congr (((hperm.filter (·.2.isOk)).map Prod.fst).map b.key).mem_iff rfl rfl

/-- Only tokens that are due are written. -/
theorem Written.isDue_of_isOk (h : Written b now reason ttlSeconds g answers g')
    {a : String × Except Fault Unit} (ha : a ∈ answers) (hok : a.2.isOk = true) :
    isDue reason ttlSeconds a.1 = true := by
  unfold isDue
  cases hrejected : rejection? a.1 reason ttlSeconds with
  | none => rfl
  | some fault =>
    rw [h.rejected a ha fault hrejected] at hok
    cases hok

/-- What has worked is part of what was due. -/
theorem Written.worked_sublist (h : Written b now reason ttlSeconds g answers g') :
    (worked answers).Sublist
      ((answers.filter fun a => isDue reason ttlSeconds a.1).map Prod.fst) := by
  have hboth : answers.filter (·.2.isOk) =
      (answers.filter fun a => isDue reason ttlSeconds a.1).filter (·.2.isOk) := by
    rw [List.filter_filter]
    refine List.filter_congr fun a ha => ?_
    rw [Bool.eq_iff_iff, Bool.and_eq_true]
    exact (and_iff_left_of_imp (h.isDue_of_isOk ha)).symm
  unfold worked
  rw [hboth]
  exact List.filter_sublist.map Prod.fst

/-- A rejected token leaves everything as it is. -/
theorem Written.reject (h : Written b now reason ttlSeconds g answers g') {token : String}
    {fault : Fault} (hrejected : rejection? token reason ttlSeconds = some fault) :
    Written b now reason ttlSeconds g ((token, .error fault) :: answers) g' := by
  have hnot : isDue reason ttlSeconds token = false := by
    unfold isDue
    rw [hrejected]
    rfl
  have hcount : ((token, .error fault) :: answers).countP (fun a => isDue reason ttlSeconds a.1) =
      answers.countP fun a => isDue reason ttlSeconds a.1 :=
    List.countP_cons_of_neg (by simp [hnot])
  refine ⟨?_, ?_, ?_, ?_, h.stored⟩
  · rw [hcount]
    exact h.gate
  · intro a ha fault' hfault
    rcases List.mem_cons.mp ha with rfl | ha
    · rw [Option.some.inj (hrejected.symm.trans hfault)]
    · exact h.rejected a ha fault' hfault
  · intro a ha hdue
    rcases List.mem_cons.mp ha with rfl | ha
    · cases hnot.symm.trans hdue
    · exact h.dated a ha hdue
  · rw [hcount]
    exact h.passed

/-- A token that is due calls the store. -/
theorem Written.call (h : Written b now reason ttlSeconds g answers g') {token : String}
    (hdue : rejection? token reason ttlSeconds = none)
    (hnow : Timestamp.inRange now.second = true) :
    let value := (BlacklistEntry.of now reason ttlSeconds).render
    let result := g'.call (·.set now (b.key token) value (some (.ofSeconds ttlSeconds)))
    Written b now reason ttlSeconds g
      ((token, result.1.mapError .store) :: answers) result.2 := by
  intro value result
  have hcount : ∀ answer : Except Fault Unit,
      ((token, answer) :: answers).countP (fun a => isDue reason ttlSeconds a.1) =
        answers.countP (fun a => isDue reason ttlSeconds a.1) + 1 :=
    fun answer => List.countP_cons_of_pos (by simp [isDue, hdue])
  set k := answers.countP fun a => isDue reason ttlSeconds a.1 with hk
  -- the gate decides by how many calls it has had, and not by what they have done
  have hnext : g'.next = { Gate.next^[k + 1] g with store := g'.store } := by
    rw [Function.iterate_succ_apply', ← Gate.next_withStore, ← h.gate]
  have hrefusal : (Gate.next^[k] g).refusal? = g'.refusal? := by
    rw [h.gate]
    rfl
  have hrejected : ∀ answer : Except Fault Unit, ∀ a ∈ (token, answer) :: answers,
      ∀ fault, rejection? a.1 reason ttlSeconds = some fault → a.2 = .error fault := by
    intro answer a ha fault hfault
    rcases List.mem_cons.mp ha with rfl | ha
    · cases hdue.symm.trans hfault
    · exact h.rejected a ha fault hfault
  cases hpass : g'.refusal? with
  | some e =>
    have hresult : result = (.error e, g'.next) := Gate.call_of_refusal hpass _
    rw [hresult]
    refine ⟨?_, hrejected _, fun _ _ _ => hnow, ?_, ?_⟩
    · rw [hcount, Gate.next_store]
      exact hnext
    · rw [hcount, List.range_succ, List.countP_append, ← h.passed]
      simp [hrefusal, hpass, Except.mapError, Except.isOk, Except.toBool]
    · intro key
      rw [Gate.next_store]
      exact h.stored key
  | none =>
    have hresult : result = (.ok (), { g'.next with
        store := g'.store.put (b.key token) (.text value) (now.later? (.ofSeconds ttlSeconds)) }) :=
      Gate.call_of_pass hpass _
    rw [hresult]
    refine ⟨?_, hrejected _, fun _ _ _ => hnow, ?_, ?_⟩
    · rw [hcount, hnext]
    · rw [hcount, List.range_succ, List.countP_append, ← h.passed]
      simp [hrefusal, hpass, Except.mapError, Except.isOk, Except.toBool]
    · intro key
      show (g'.store.entries.insert (b.key token) (storedFor now reason ttlSeconds)).get? key =
        if key ∈ b.key token :: (worked answers).map b.key then _ else _
      rw [Table.get?_insert, h.stored key]
      by_cases hkey : key = b.key token <;> simp [hkey]

/-- One more write is one more answer. -/
theorem Written.write (h : Written b now reason ttlSeconds g answers s.gate) (token : String) :
    IfEnds (b.write now reason ttlSeconds token) s fun answer t =>
      Written b now reason ttlSeconds g ((token, answer) :: answers) t.gate ∧
        t.counts = s.counts ∧ t.events = s.events := by
  unfold Blacklist.write
  split
  · exact IfEnds.pure ⟨h.reject ‹_›, rfl, rfl⟩
  · refine ofClock_bind_ifEnds fun hnow => IfEnds.bind (callStore_ifEnds ?_)
    have hcall := h.call ‹_› hnow
    dsimp only [BlacklistEntry.of] at hcall
    generalize s.gate.call (·.set now (b.key token)
      (BlacklistEntry.mk reason now.date ttlSeconds).render (some (.ofSeconds ttlSeconds))) = result
      at hcall ⊢
    obtain ⟨answer, after⟩ := result
    cases answer with
    | error e => exact IfEnds.pure ⟨hcall, rfl, rfl⟩
    | ok _ => exact IfEnds.pure ⟨hcall, rfl, rfl⟩

end Writes

end Bulwark.Blacklist
