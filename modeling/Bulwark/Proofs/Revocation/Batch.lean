import Mathlib.Data.UInt
import Bulwark.Proofs.Revocation.Writes

/-!
# Batches in any order

However the revocations of a batch get in each other's way, the batch ends with the same.  A step
begins a token, or writes one that is under way, or concludes one (`Batch.Step`).  What a batch has
done so far can be told from the answers that are there, in whatever order they have come
(`Batch.Progress`), and every step leaves one step less to be taken.  So after three steps for each
token nothing is left of the batch (`runBatch_ifEnds`), and what that comes to does not depend on
the order (`addAll_any_order`).

Revoking the tokens one after the other is one of the orders (`addEach_eq_addAll`).
-/

namespace Bulwark.Blacklist

/-! ## Steps -/

namespace Task

/-- The token of a revocation that is under way. -/
def token : Task → String
  | begun token => token
  | answered token _ => token

/-- The answer of the store, if it is there. -/
def answer? : Task → Option (String × Except Fault Unit)
  | begun _ => none
  | answered token answer => some (token, answer)

/-- The steps that are left. -/
def left : Task → ℕ
  | begun _ => 2
  | answered _ _ => 1

end Task

namespace Batch

/-- The steps that are left. -/
def left (p : Batch) : ℕ := 3 * p.waiting.length + (p.underWay.map Task.left).sum

/-- The answers that are there. -/
def answers (p : Batch) : List (String × Except Fault Unit) :=
  p.underWay.filterMap Task.answer? ++ p.finished

/-- The tokens of the batch. -/
def tokens (p : Batch) : List String :=
  p.waiting ++ (p.underWay.map Task.token ++ p.finished.map Prod.fst)

section Steps

variable (b : Blacklist) (now : Instant) (reason : String) (ttlSeconds : ℕ)

/-- What a step can do. -/
inductive Step (p : Batch) (s : Session) : Batch → Session → Prop where
  | starts {token : String} {rest : List String} (waits : p.waiting = token :: rest)
      (room : p.underWay.length < batchWidth) :
      Step p s { p with waiting := rest, underWay := p.underWay ++ [.begun token] } s
  | writes {before after : List Task} {token : String} {answer : Except Fault Unit} {t : Session}
      (found : p.underWay = before ++ .begun token :: after)
      (wrote : b.write now reason ttlSeconds token s = .ok (answer, t)) :
      Step p s { p with underWay := before ++ .answered token answer :: after } t
  | concludes {before after : List Task} {token : String} {answer : Except Fault Unit} {t : Session}
      (found : p.underWay = before ++ .answered token answer :: after)
      (gate : t.gate = s.gate)
      (counts : t.counts = if answer.isOk then s.counts.recordAdded else s.counts)
      (events : t.events = s.events ++ outcomeEvents reason ttlSeconds token answer) :
      Step p s { p with
        underWay := before ++ after
        finished := p.finished ++ [(token, answer)] } t
  | rests (waiting : p.waiting = []) (underWay : p.underWay = []) : Step p s p s

end Steps

section Stepping

variable {b : Blacklist} {now : Instant} {reason : String} {ttlSeconds : ℕ} {p : Batch}
  {s : Session}

theorem exists_split {α : Type} {l : List α} {i : ℕ} {a : α} (h : l[i]? = some a) :
    ∃ before after, l = before ++ a :: after ∧ (∀ x, l.set i x = before ++ x :: after) ∧
      l.eraseIdx i = before ++ after := by
  obtain ⟨hi, rfl⟩ := List.getElem?_eq_some_iff.mp h
  refine ⟨l.take i, l.drop (i + 1), ?_, fun x => ?_, List.eraseIdx_eq_take_drop_succ l i⟩
  · rw [← List.drop_eq_getElem_cons hi, List.take_append_drop]
  · rw [List.set_eq_take_append_cons_drop, if_pos hi]

/-- If only those under way can go on, there is one to go on with, unless there is none. -/
theorem underWay_eq_nil {choice : ℕ} (hoptions : p.options = p.underWay.length)
    (hnone : p.underWay[choice % p.options]? = none) : p.underWay = [] := by
  have hbeyond := List.getElem?_eq_none_iff.mp hnone
  rw [hoptions] at hbeyond
  by_contra hne
  have hwithin := Nat.mod_lt choice (List.length_pos_iff.mpr hne)
  omega

/-- A step that ends does one of these. -/
theorem step_ifEnds (p : Batch) (choice : ℕ) : IfEnds (p.step b now reason ttlSeconds choice) s
    (Step b now reason ttlSeconds p s) := by
  unfold step
  dsimp only
  split
  · rename_i token hfound
    obtain ⟨before, after, hsplit, hset, -⟩ := exists_split hfound
    refine IfEnds.bind fun answer t hwrote => ?_
    dsimp only
    rw [hset]
    exact IfEnds.pure (.writes hsplit hwrote)
  · rename_i token answer hfound
    obtain ⟨before, after, hsplit, -, herase⟩ := exists_split hfound
    rw [herase]
    unfold conclude
    refine IfEnds.bind (IfEnds.modify_bind ?_)
    cases answer with
    | ok _ => exact IfEnds.modify (IfEnds.pure (.concludes hsplit rfl rfl rfl))
    | error fault => exact IfEnds.pure (IfEnds.pure (.concludes hsplit rfl rfl rfl))
  · rename_i token rest hnone hwaits
    refine IfEnds.pure (.starts hwaits ?_)
    by_contra hfull
    have hwide : batchWidth ≤ p.underWay.length := Nat.not_lt.mp hfull
    have hnil := underWay_eq_nil (by simp [options, hwide]) hnone
    rw [hnil] at hwide
    exact absurd hwide (by decide)
  · rename_i hnone hwaits
    exact IfEnds.pure (.rests hwaits (underWay_eq_nil (by simp [options, hwaits]) hnone))

/-! ## What has been done so far -/

/-- What a batch has made of a session so far. -/
structure Progress (b : Blacklist) (now : Instant) (reason : String) (ttlSeconds : ℕ)
    (tokens : List String) (s : Session) (p : Batch) (t : Session) : Prop where
  /-- No token is lost, and none comes in. -/
  tokens_perm : p.tokens.Perm tokens
  narrow : p.underWay.length ≤ batchWidth
  written : Written b now reason ttlSeconds s.gate p.answers t.gate
  counts : t.counts = { s.counts with added := s.counts.added + UInt64.ofNat p.added }
  events : t.events =
    s.events ++ p.finished.flatMap fun a => outcomeEvents reason ttlSeconds a.1 a.2

variable {tokens : List String} {p' : Batch} {t t' : Session}

theorem progress_start (b : Blacklist) (now : Instant) (reason : String) (ttlSeconds : ℕ)
    (tokens : List String) (s : Session) :
    Progress b now reason ttlSeconds tokens s ⟨tokens, [], []⟩ s where
  tokens_perm := by simp [Batch.tokens]
  narrow := Nat.zero_le _
  written := written_nil b now reason ttlSeconds s.gate
  counts := by simp [added]
  events := by simp

/-- A token that waits is begun. -/
theorem Progress.starts {token : String} {rest : List String}
    (h : Progress b now reason ttlSeconds tokens s p t) (waits : p.waiting = token :: rest)
    (room : p.underWay.length < batchWidth) :
    Progress b now reason ttlSeconds tokens s
      { p with waiting := rest, underWay := p.underWay ++ [.begun token] } t where
  tokens_perm := by
    refine List.Perm.trans ?_ h.tokens_perm
    rw [List.perm_iff_count]
    intro a
    simp only [Batch.tokens, waits, List.map_append, List.map_singleton, Task.token,
      List.count_append, List.count_cons, List.count_nil]
    omega
  narrow := by
    rw [List.length_append]
    exact room
  written := by
    have hnone : [Task.begun token].filterMap Task.answer? = [] := rfl
    have hwritten := h.written
    simp only [answers, List.filterMap_append, hnone, List.append_nil] at hwritten ⊢
    exact hwritten
  counts := h.counts
  events := h.events

/-- The store answers for a token under way. -/
theorem Progress.writes {before after : List Task} {token : String} {answer : Except Fault Unit}
    (h : Progress b now reason ttlSeconds tokens s p t)
    (found : p.underWay = before ++ .begun token :: after)
    (wrote : b.write now reason ttlSeconds token t = .ok (answer, t')) :
    Progress b now reason ttlSeconds tokens s
      { p with underWay := before ++ .answered token answer :: after } t' := by
  obtain ⟨hwritten, hcounts, hevents⟩ := h.written.write token answer t' wrote
  refine ⟨?_, ?_, ?_, hcounts.trans h.counts, hevents.trans h.events⟩
  · simpa [Batch.tokens, found, Task.token] using h.tokens_perm
  · simpa [found] using h.narrow
  · -- the new answer comes to those that are there
    refine hwritten.perm ?_
    simp only [answers, found, List.filterMap_append, List.filterMap_cons, Task.answer?]
    exact (List.perm_middle.append_right p.finished).symm

/-- A token with an answer is finished. -/
theorem Progress.concludes {before after : List Task} {token : String}
    {answer : Except Fault Unit} (h : Progress b now reason ttlSeconds tokens s p t)
    (found : p.underWay = before ++ .answered token answer :: after) (gate : t'.gate = t.gate)
    (counts : t'.counts = if answer.isOk then t.counts.recordAdded else t.counts)
    (events : t'.events = t.events ++ outcomeEvents reason ttlSeconds token answer) :
    Progress b now reason ttlSeconds tokens s
      { p with underWay := before ++ after, finished := p.finished ++ [(token, answer)] } t' where
  tokens_perm := by
    refine List.Perm.trans ?_ h.tokens_perm
    rw [List.perm_iff_count]
    intro a
    simp only [Batch.tokens, found, List.map_append, List.map_cons, List.map_nil, Task.token,
      List.count_append, List.count_cons, List.count_nil]
    omega
  narrow := by
    have hnarrow := h.narrow
    simp only [found, List.length_append, List.length_cons] at hnarrow ⊢
    omega
  written := by
    rw [gate]
    refine h.written.perm ?_
    simp only [answers, found, List.filterMap_append, List.filterMap_cons, Task.answer?]
    rw [← List.append_assoc]
    exact (List.perm_middle.append_right p.finished).trans (List.perm_append_singleton _ _).symm
  counts := by
    rw [counts, h.counts]
    cases answer with
    | ok _ =>
      simp only [added, List.countP_append, List.countP_singleton, Except.isOk, Except.toBool,
        if_true, UInt64.ofNat_add, RevocationCount.recordAdded, UInt64.add_assoc]
      rfl
    | error fault => simp [added, Except.isOk, Except.toBool]
  events := by
    rw [events, h.events, List.flatMap_append, List.flatMap_singleton, List.append_assoc]

/-- One step less is to be taken. -/
theorem Step.left_eq (h : Step b now reason ttlSeconds p t p' t') : p'.left = p.left - 1 := by
  cases h with
  | starts waits =>
    simp [left, waits, Task.left]
    omega
  | writes found =>
    simp [left, found, Task.left]
    omega
  | concludes found =>
    simp [left, found, Task.left]
    omega
  | rests waits idle => simp [left, waits, idle]

/-- A step makes progress. -/
theorem Progress.step (h : Progress b now reason ttlSeconds tokens s p t)
    (hstep : Step b now reason ttlSeconds p t p' t') :
    Progress b now reason ttlSeconds tokens s p' t' := by
  cases hstep with
  | starts waits room => exact h.starts waits room
  | writes found wrote => exact h.writes found wrote
  | concludes found gate counts events => exact h.concludes found gate counts events
  | rests => exact h

/-- So many steps more. -/
theorem run_ifEnds (h : Progress b now reason ttlSeconds tokens s p t) (choices : List ℕ) :
    IfEnds (p.run b now reason ttlSeconds choices) t fun p' t' =>
      Progress b now reason ttlSeconds tokens s p' t' ∧ p'.left = p.left - choices.length := by
  induction choices generalizing p t with
  | nil => exact IfEnds.pure ⟨h, rfl⟩
  | cons choice rest ih =>
    unfold run
    rw [List.foldlM_cons]
    refine IfEnds.bind ((step_ifEnds p choice).mono fun p' t' hstep => ?_)
    have hprogress := h.step hstep
    have hleft := hstep.left_eq
    refine (ih hprogress).mono ?_
    rintro q u ⟨hq, hleft'⟩
    refine ⟨hq, ?_⟩
    rw [hleft', hleft, List.length_cons]
    omega

/-! ## Batches that end -/

/-- A write ends if there is a date for it, or none is needed. -/
theorem write_ends {token : String} (h : Timestamp.inRange now.second = true ∨
    isDue reason ttlSeconds token = false) :
    Ends (b.write now reason ttlSeconds token) s fun _ _ => True := by
  unfold Blacklist.write
  split
  · exact Ends.pure trivial
  · rename_i hdue
    have hnow : Timestamp.inRange now.second = true := by
      apply h.resolve_right
      simp [isDue, hdue]
    refine Ends.bind (Ends.ofClock_of_inRange hnow (Ends.bind (Ends.callStore_gate ?_ ?_)))
    · exact fun _ _ => Ends.pure trivial
    · exact fun _ => Ends.pure trivial

theorem step_ends (h : Progress b now reason ttlSeconds tokens s p t)
    (hdue : Timestamp.inRange now.second = true ∨
      ∀ token ∈ tokens, isDue reason ttlSeconds token = false) (choice : ℕ) :
    Ends (p.step b now reason ttlSeconds choice) t fun _ _ => True := by
  unfold step
  dsimp only
  split
  · rename_i token hfound
    have htoken : token ∈ tokens := by
      refine h.tokens_perm.subset (List.mem_append_right _ (List.mem_append_left _ ?_))
      exact List.mem_map_of_mem (f := Task.token) (List.mem_of_getElem? hfound)
    exact Ends.bind ((write_ends (hdue.imp_right (· token htoken))).mono fun _ _ _ =>
      Ends.pure trivial)
  · refine Ends.bind (Ends.bind (Ends.report ?_))
    split
    · exact Ends.count (Ends.pure trivial)
    · exact Ends.pure (Ends.pure trivial)
  · exact Ends.pure trivial
  · exact Ends.pure trivial

/-- A batch ends if there is a date for its entries, or none is needed. -/
theorem run_ends (h : Progress b now reason ttlSeconds tokens s p t)
    (hdue : Timestamp.inRange now.second = true ∨
      ∀ token ∈ tokens, isDue reason ttlSeconds token = false) (choices : List ℕ) :
    Ends (p.run b now reason ttlSeconds choices) t fun _ _ => True := by
  induction choices generalizing p t with
  | nil => exact Ends.pure trivial
  | cons choice rest ih =>
    unfold run
    rw [List.foldlM_cons]
    obtain ⟨p', t', hstep, -⟩ := step_ends h hdue choice
    exact Ends.bind ⟨p', t', hstep, ih (h.step (step_ifEnds p choice p' t' hstep))⟩

/-- Nothing is left of a batch. -/
theorem eq_nil_of_left (h : p.left = 0) : p.waiting = [] ∧ p.underWay = [] := by
  have hwaiting : p.waiting.length = 0 := by
    unfold left at h
    omega
  refine ⟨List.eq_nil_of_length_eq_zero hwaiting, ?_⟩
  cases hunder : p.underWay with
  | nil => rfl
  | cons task rest =>
    have hsum : (p.underWay.map Task.left).sum = 0 := by
      unfold left at h
      omega
    rw [hunder, List.map_cons, List.sum_cons] at hsum
    cases task <;> simp [Task.left] at hsum

end Stepping
end Batch

/-! ## Whole batches -/

section Whole

variable {b : Blacklist} {now : Instant} {reason : String} {ttlSeconds : ℕ} {tokens : List String}
  {s t : Session} {p : Batch}

/-- Three steps for each token are enough. -/
theorem runBatch_ifEnds (b : Blacklist) (now : Instant) (reason : String) (ttlSeconds : ℕ)
    (tokens : List String) (order : ℕ → ℕ) (s : Session) :
    IfEnds (b.runBatch now reason ttlSeconds tokens order) s fun p t =>
      Batch.Progress b now reason ttlSeconds tokens s p t ∧ p.waiting = [] ∧ p.underWay = [] := by
  have hstart := Batch.progress_start b now reason ttlSeconds tokens s
  refine (Batch.run_ifEnds hstart _).mono fun p t hrun => ⟨hrun.1, Batch.eq_nil_of_left ?_⟩
  rw [hrun.2, List.length_map, List.length_range]
  simp [Batch.left]

theorem runBatch_ends (b : Blacklist) (now : Instant) (reason : String) (ttlSeconds : ℕ)
    (tokens : List String) (order : ℕ → ℕ) (s : Session)
    (hdue : Timestamp.inRange now.second = true ∨ dueTokens reason ttlSeconds tokens = []) :
    Ends (b.runBatch now reason ttlSeconds tokens order) s fun p t =>
      Batch.Progress b now reason ttlSeconds tokens s p t ∧ p.waiting = [] ∧ p.underWay = [] := by
  have hnone : Timestamp.inRange now.second = true ∨
      ∀ token ∈ tokens, isDue reason ttlSeconds token = false := by
    refine hdue.imp_right fun hnil token htoken => ?_
    rw [dueTokens_eq, List.filter_eq_nil_iff] at hnil
    exact Bool.eq_false_iff.mpr (hnil token htoken)
  obtain ⟨p, t, hrun, -⟩ := Batch.run_ends
    (Batch.progress_start b now reason ttlSeconds tokens s) hnone
    ((List.range (3 * tokens.length)).map order)
  exact ⟨p, t, hrun, runBatch_ifEnds b now reason ttlSeconds tokens order s p t hrun⟩

/-! ## One after the other -/

/-- A revocation in a batch is written and concluded. -/
theorem addEach_cons (token : String) (rest : List String) :
    b.addEach now reason ttlSeconds (token :: rest) = (do
      let answer ← b.write now reason ttlSeconds token
      conclude reason ttlSeconds token answer
      return (if answer.isOk then 1 else 0) + (← b.addEach now reason ttlSeconds rest)) := by
  rw [addEach]
  unfold add write
  cases rejection? token reason ttlSeconds with
  | some fault => simp [conclude, outcomeEvents, Except.isOk, Except.toBool]
  | none =>
    simp only [bind_assoc]
    congr 1
    funext date
    congr 1
    funext answer
    cases answer with
    | error e => simp [conclude, outcomeEvents, Except.isOk, Except.toBool]
    | ok _ => simp [conclude, outcomeEvents, Except.isOk, Except.toBool]

theorem step_begin (token : String) (rest : List String)
    (finished : List (String × Except Fault Unit)) :
    Batch.step b now reason ttlSeconds ⟨token :: rest, [], finished⟩ 0 =
      pure ⟨rest, [.begun token], finished⟩ := by
  simp [Batch.step]

theorem step_write (token : String) (rest : List String)
    (finished : List (String × Except Fault Unit)) :
    Batch.step b now reason ttlSeconds ⟨rest, [.begun token], finished⟩ 0 = (do
      let answer ← b.write now reason ttlSeconds token
      return ⟨rest, [.answered token answer], finished⟩) := by
  simp [Batch.step]

theorem step_conclude (token : String) (answer : Except Fault Unit) (rest : List String)
    (finished : List (String × Except Fault Unit)) :
    Batch.step b now reason ttlSeconds ⟨rest, [.answered token answer], finished⟩ 0 = (do
      conclude reason ttlSeconds token answer
      return ⟨rest, [], finished ++ [(token, answer)]⟩) := by
  simp [Batch.step]

/-- Whoever always goes on with the first finishes each revocation before the next. -/
theorem run_firstFirst (finished : List (String × Except Fault Unit)) :
    (do return (← Batch.run b now reason ttlSeconds ⟨tokens, [], finished⟩
      (List.replicate (3 * tokens.length) 0)).added) =
    (do return finished.countP (·.2.isOk) + (← b.addEach now reason ttlSeconds tokens)) := by
  induction tokens generalizing finished with
  | nil => simp [Batch.run, Batch.added, addEach]
  | cons token rest ih =>
    have hthree : List.replicate (3 * (token :: rest).length) 0 =
        0 :: 0 :: 0 :: List.replicate (3 * rest.length) 0 := by
      rw [List.length_cons, Nat.mul_succ]
      rfl
    rw [hthree, addEach_cons]
    unfold Batch.run at ih ⊢
    simp only [List.foldlM_cons, step_begin, step_write, step_conclude, bind_assoc, pure_bind]
    congr 1
    funext answer
    congr 1
    funext _
    rw [ih, List.countP_append, List.countP_singleton]
    simp only [Nat.add_assoc]

/-- Revoking the tokens one after the other is one of the orders. -/
theorem addEach_eq_addAll : b.addEach now reason ttlSeconds tokens =
    b.addAll now reason ttlSeconds tokens fun _ => 0 := by
  unfold addAll runBatch
  rw [List.map_const', List.length_range, run_firstFirst]
  simp

/-! ## What a batch comes to -/

/-- The audit event of a revocation. -/
def addAudit (reason : String) (ttlSeconds : ℕ) (token : String) : AuditEvent :=
  ⟨auditCategory, "add", "token " ++ maskToken token ++ " revoked for " ++ Nat.repr ttlSeconds ++
    "s: " ++ reason⟩

/-- Some revocations of a batch have worked: their tokens are stored, counted and reported, and
nothing else has happened. -/
structure Adds (b : Blacklist) (now : Instant) (reason : String) (ttlSeconds : ℕ)
    (tokens : List String) (s : Session) (written : List String) (t : Session) : Prop where
  due : written.Subperm (dueTokens reason ttlSeconds tokens)
  /-- As many have worked as the gate lets pass of so many calls. -/
  passed : written.length = (List.range (dueTokens reason ttlSeconds tokens).length).countP
    fun i => (Gate.next^[i] s.gate).refusal?.isNone
  gate : t.gate = { Gate.next^[(dueTokens reason ttlSeconds tokens).length] s.gate with
    store := t.gate.store }
  stored : ∀ key, t.gate.store.entries.get? key =
    if key ∈ written.map b.key then some (storedFor now reason ttlSeconds)
    else s.gate.store.entries.get? key
  counts : t.counts = { s.counts with added := s.counts.added + UInt64.ofNat written.length }
  audits : auditEvents t.events =
    auditEvents s.events ++ written.map (addAudit reason ttlSeconds)

theorem auditEvents_outcomes (answers : List (String × Except Fault Unit)) :
    auditEvents (answers.flatMap fun a => outcomeEvents reason ttlSeconds a.1 a.2) =
      (worked answers).map (addAudit reason ttlSeconds) := by
  induction answers with
  | nil => rfl
  | cons a rest ih =>
    obtain ⟨token, answer⟩ := a
    rw [List.flatMap_cons, auditEvents_append, ih]
    cases answer <;> rfl

/-- What a batch has done, once nothing of it is left. -/
theorem adds_of_progress (h : Batch.Progress b now reason ttlSeconds tokens s p t)
    (hwaiting : p.waiting = []) (hunderWay : p.underWay = []) :
    (p.finished.map Prod.fst).Perm tokens ∧
      Adds b now reason ttlSeconds tokens s (worked p.finished) t := by
  have hanswers : p.answers = p.finished := by simp [Batch.answers, hunderWay]
  have htokens : (p.finished.map Prod.fst).Perm tokens := by
    have hperm := h.tokens_perm
    simpa [Batch.tokens, hwaiting, hunderWay] using hperm
  have hwritten := h.written
  rw [hanswers] at hwritten
  have hdue : (dueTokens reason ttlSeconds tokens).Perm
      ((p.finished.filter fun a => isDue reason ttlSeconds a.1).map Prod.fst) := by
    rw [dueTokens_eq]
    refine (htokens.filter _).symm.trans ?_
    rw [List.filter_map]
    rfl
  have hcount : (dueTokens reason ttlSeconds tokens).length =
      p.finished.countP fun a => isDue reason ttlSeconds a.1 := by
    rw [hdue.length_eq, List.length_map, List.countP_eq_length_filter]
  refine ⟨htokens, ?_, ?_, ?_, hwritten.stored, ?_, ?_⟩
  · exact hwritten.worked_sublist.subperm.trans hdue.symm.subperm
  · rw [length_worked, hcount]
    exact hwritten.passed
  · rw [hcount]
    exact hwritten.gate
  · rw [length_worked]
    exact h.counts
  · rw [h.events, auditEvents_append, auditEvents_outcomes]

/-- Behind an open gate everything works that is due. -/
theorem Adds.perm_due {written : List String} (h : Adds b now reason ttlSeconds tokens s written t)
    (hopen : s.gate.IsOpen) : written.Perm (dueTokens reason ttlSeconds tokens) := by
  refine h.due.perm_of_length_le (Nat.le_of_eq ?_)
  have hall : ∀ i ∈ List.range (dueTokens reason ttlSeconds tokens).length,
      (Gate.next^[i] s.gate).refusal?.isNone = true := by
    intro i _
    rw [(hopen.iterate_next i).refusal?]
    rfl
  rw [h.passed, List.countP_eq_length.mpr hall, List.length_range]

theorem Adds.isOpen {written : List String} (h : Adds b now reason ttlSeconds tokens s written t)
    (hopen : s.gate.IsOpen) : t.gate.IsOpen := by
  rw [h.gate]
  have hafter := hopen.iterate_next (dueTokens reason ttlSeconds tokens).length
  exact ⟨hafter.plan_nil, hafter.connected⟩

/-- An entry that has just been written says that its token is revoked. -/
theorem lookupAnswer_storedFor (hnow : now.IsDated) (reason : String)
    (httl : ttlSeconds ≤ Text.maxUnsigned) (hpos : ttlSeconds ≠ 0) (mode : FailureMode) :
    (storedFor now reason ttlSeconds).isLive now = true ∧
      lookupAnswer mode now (some (storedFor now reason ttlSeconds)) = .ok true := by
  have htime : now.nanos < now.nanos + ttlSeconds * nanosPerSecond := by
    unfold nanosPerSecond
    omega
  refine ⟨(BlacklistEntry.isLive_deadline_iff hnow.inRange hnow _).mpr htime, ?_⟩
  unfold lookupAnswer storedFor
  simp only [BlacklistEntry.read?_render_of hnow httl, hnow.ofInstant?,
    isExpiredAt_eq_false hnow hnow htime, Bool.not_false]

/-- After a batch the tokens that were due are revoked, and the others are as they were. -/
theorem Adds.isRevoked {written : List String} (h : Adds b now reason ttlSeconds tokens s written t)
    (hopen : s.gate.IsOpen) (hdated : dueTokens reason ttlSeconds tokens ≠ [] → now.IsDated)
    (httl : ttlSeconds ≤ Text.maxUnsigned) (token : String) :
    (b.isRevoked now token t).map Prod.fst =
      if token ∈ dueTokens reason ttlSeconds tokens then .ok true
      else (b.isRevoked now token s).map Prod.fst := by
  have hkey : b.key token ∈ written.map b.key ↔
      token ∈ dueTokens reason ttlSeconds tokens := by
    rw [← (h.perm_due hopen).mem_iff, List.mem_map]
    constructor
    · rintro ⟨other, hother, heq⟩
      exact (String.append_right_inj _).mp heq ▸ hother
    · exact fun hmem => ⟨token, hmem, rfl⟩
  rw [isRevoked_answer, isRevoked_answer, hopen.refusal?, (h.isOpen hopen).refusal?]
  dsimp only
  unfold Store.visible?
  rw [h.stored]
  by_cases hmem : token ∈ dueTokens reason ttlSeconds tokens
  · rw [if_pos hmem, if_pos (hkey.mpr hmem)]
    have hdue := hmem
    rw [dueTokens_eq, List.mem_filter, isDue_iff] at hdue
    obtain ⟨-, hblank, -, hpos⟩ := hdue
    obtain ⟨hlive, hanswer⟩ := lookupAnswer_storedFor (hdated (List.ne_nil_of_mem hmem)) reason
      httl hpos b.failureMode
    rw [if_neg (by rw [hblank]; exact Bool.false_ne_true), Option.filter_some, if_pos hlive,
      hanswer]
  · rw [if_neg hmem, if_neg (mt hkey.mp hmem)]

/-- A batch gives the number of those that have worked. -/
theorem addAll_ends (b : Blacklist) (now : Instant) (reason : String) (ttlSeconds : ℕ)
    (tokens : List String) (order : ℕ → ℕ) (s : Session)
    (hdue : Timestamp.inRange now.second = true ∨ dueTokens reason ttlSeconds tokens = []) :
    ∃ p t, b.runBatch now reason ttlSeconds tokens order s = .ok (p, t) ∧
      b.addAll now reason ttlSeconds tokens order s = .ok ((worked p.finished).length, t) ∧
      (p.finished.map Prod.fst).Perm tokens ∧
      Adds b now reason ttlSeconds tokens s (worked p.finished) t := by
  obtain ⟨p, t, hrun, hprogress, hwaiting, hunderWay⟩ :=
    runBatch_ends b now reason ttlSeconds tokens order s hdue
  refine ⟨p, t, hrun, ?_, adds_of_progress hprogress hwaiting hunderWay⟩
  unfold addAll
  rw [bind_of_ok hrun, length_worked]
  rfl

/-- A batch that has ended, and has had something to write, has had a date for it. -/
theorem inRange_of_runBatch {order : ℕ → ℕ} {r : Batch × Session}
    (hrun : b.runBatch now reason ttlSeconds tokens order s = .ok r)
    (hdue : dueTokens reason ttlSeconds tokens ≠ []) : Timestamp.inRange now.second = true := by
  obtain ⟨hprogress, hwaiting, hunderWay⟩ :=
    runBatch_ifEnds b now reason ttlSeconds tokens order s r.1 r.2 hrun
  obtain ⟨token, htoken⟩ := List.exists_mem_of_ne_nil _ hdue
  rw [dueTokens_eq, List.mem_filter] at htoken
  -- the token has had its answer
  have hmem : token ∈ r.1.finished.map Prod.fst := by
    have hall := hprogress.tokens_perm.mem_iff.mpr htoken.1
    simpa [Batch.tokens, hwaiting, hunderWay] using hall
  obtain ⟨a, ha, rfl⟩ := List.mem_map.mp hmem
  exact hprogress.written.dated a (List.mem_append_right _ ha) htoken.2

/-- **A batch does not depend on the order.**  In whatever order its revocations get on, a batch
ends, unless there is no date for an entry that is to be written.  Every token has had its answer.
Those whose write has worked, and these alone, are stored, counted and reported; there are as many
as the gate lets pass of the store calls, one for each token that is due, and their number is what
is given.  Behind an open gate that is all that are due, and the store holds what it holds after the
same revocations one after the other; then just these are revoked, and what was revoked before. -/
theorem addAll_any_order (b : Blacklist) (now : Instant) (reason : String) (ttlSeconds : ℕ)
    (tokens : List String) (s : Session) (order : ℕ → ℕ) :
    let due := dueTokens reason ttlSeconds tokens
    (Timestamp.inRange now.second = false → due ≠ [] →
      ∃ halt, b.addAll now reason ttlSeconds tokens order s = .error halt) ∧
    (Timestamp.inRange now.second = true ∨ due = [] → ∃ p t,
      b.runBatch now reason ttlSeconds tokens order s = .ok (p, t) ∧
      b.addAll now reason ttlSeconds tokens order s = .ok ((worked p.finished).length, t) ∧
      (p.finished.map Prod.fst).Perm tokens ∧
      Adds b now reason ttlSeconds tokens s (worked p.finished) t ∧
      (s.gate.IsOpen → (worked p.finished).Perm due ∧
        (∃ u, b.addEach now reason ttlSeconds tokens s = .ok (due.length, u) ∧
          u.counts = t.counts ∧
          ∀ key, u.gate.store.entries.get? key = t.gate.store.entries.get? key) ∧
        (now.date < .latest → ttlSeconds ≤ Text.maxUnsigned → ∀ token,
          (b.isRevoked now token t).map Prod.fst =
            if token ∈ due then .ok true else (b.isRevoked now token s).map Prod.fst))) := by
  intro due
  refine ⟨fun hnow hne => ?_, fun hdue => ?_⟩
  · cases hrun : b.runBatch now reason ttlSeconds tokens order s with
    | error halt => exact ⟨halt, bind_of_error hrun⟩
    | ok r =>
      rw [inRange_of_runBatch hrun hne] at hnow
      cases hnow
  obtain ⟨p, t, hrun, hadd, hperm, hadds⟩ :=
    addAll_ends b now reason ttlSeconds tokens order s hdue
  refine ⟨p, t, hrun, hadd, hperm, hadds, fun hopen => ⟨hadds.perm_due hopen, ?_, ?_⟩⟩
  · -- the sequence is another order, and comes to the same
    obtain ⟨q, u, -, hseq, -, hadds'⟩ :=
      addAll_ends b now reason ttlSeconds tokens (fun _ => 0) s hdue
    have hboth := (hadds'.perm_due hopen).trans (hadds.perm_due hopen).symm
    refine ⟨u, ?_, ?_, fun key => ?_⟩
    · rw [addEach_eq_addAll, hseq, (hadds'.perm_due hopen).length_eq]
    · rw [hadds'.counts, hadds.counts, hboth.length_eq]
    · rw [hadds'.stored, hadds.stored]
      exact if_congr (hboth.map b.key).mem_iff rfl rfl
  · intro hbefore httl token
    refine hadds.isRevoked hopen (fun hne => ⟨?_, hbefore⟩) httl token
    exact hdue.resolve_right hne

end Whole

/-- A batch with a blank token and one that comes twice, worked off crosswise.  The second time the
store is gone for one of the writes. -/
theorem addAll_any_order_crosswise :
    let b : Blacklist := ⟨"bl:", .failSafe⟩
    let tokens := ["77a0", " ", "bl:77a0", "77a0"]
    let crosswise := fun k : ℕ => 5 * k + 2
    let g : Gate := .opened (fun _ => 0) .empty
    let faulty : Gate := { g with plan := [none, some (.unavailable "gone"), none] }
    dueTokens "logout" 60 tokens = ["77a0", "bl:77a0", "77a0"] ∧
    (∃ t, b.addAll ⟨0⟩ "logout" 60 tokens crosswise ⟨g, .zero, []⟩ = .ok (3, t) ∧
      t.counts.added = 3 ∧ (b.isRevoked ⟨0⟩ "bl:77a0" t).map Prod.fst = .ok true) ∧
    ∃ t, b.addAll ⟨0⟩ "logout" 60 tokens crosswise ⟨faulty, .zero, []⟩ = .ok (2, t) ∧
      t.counts.added = 2 := by
  intro b tokens crosswise g faulty
  have hdue : dueTokens "logout" 60 tokens = ["77a0", "bl:77a0", "77a0"] := by decide
  have hnow : Timestamp.inRange (Instant.mk 0).second = true := by decide
  refine ⟨hdue, ?_, ?_⟩
  · obtain ⟨p, t, -, hadd, -, hadds, hopen⟩ :=
      (addAll_any_order b ⟨0⟩ "logout" 60 tokens ⟨g, .zero, []⟩ crosswise).2 (.inl hnow)
    obtain ⟨hperm, -, hlookups⟩ := hopen ⟨rfl, rfl⟩
    have hthree : (worked p.finished).length = 3 := by
      rw [hperm.length_eq, hdue]
      rfl
    refine ⟨t, hthree ▸ hadd, ?_, ?_⟩
    · rw [hadds.counts, hthree]
      rfl
    · rw [hlookups (by decide) (by decide), hdue]
      rfl
  · obtain ⟨p, t, -, hadd, -, hadds, -⟩ :=
      (addAll_any_order b ⟨0⟩ "logout" 60 tokens ⟨faulty, .zero, []⟩ crosswise).2 (.inl hnow)
    have htwo : (worked p.finished).length = 2 := by
      rw [hadds.passed, hdue]
      decide
    refine ⟨t, htwo ▸ hadd, ?_⟩
    rw [hadds.counts, htwo]
    rfl

end Bulwark.Blacklist
