import Mathlib.Data.List.Range
import Bulwark.Proofs.Recovery.Attempts

/-!
# How subscriptions follow each other

A stream is subscribed to anew after a fault, as long as its faults are retried and not too many of
them have come in a row.  What counts as a row is read off everything that was heard on the stream
since it was first opened: `faultsInARow` looks back to the last item, over as many subscriptions as
it takes.  `ofSubscriptions_ends` says how many subscriptions are opened, and that the course hands
on what each of them produced, in order and once.
-/

namespace Bulwark.Course

variable {α β : Type}

/-! ## What is heard of a subscription -/

/-- What a subscription gives up to its end or its first fault, the fault included. -/
def heard : List (Attempt β) → List (Except Fault β)
  | [] => []
  | a :: rest =>
    match a.result with
    | .ok item => .ok item :: heard rest
    | .error f => [.error f]

/-- The items that a subscription produces before it ends or faults. -/
def produced (subscription : List (Attempt β)) : List β :=
  (heard subscription).filterMap Except.toOption

/-- The fault that a subscription ends with, unless it ends by itself. -/
def fault? (subscription : List (Attempt β)) : Option Fault :=
  (heard subscription).findSome? fun
    | .ok _ => none
    | .error f => some f

/-- The faults since the last item. -/
def faultsInARow (heard : List (Except Fault β)) : ℕ :=
  (heard.reverse.takeWhile fun r => !r.isOk).length

@[simp]
theorem faultsInARow_append_ok (rs : List (Except Fault β)) (item : β) :
    faultsInARow (rs ++ [.ok item]) = 0 := by
  simp [faultsInARow, Except.isOk, Except.toBool]

@[simp]
theorem faultsInARow_append_error (rs : List (Except Fault β)) (f : Fault) :
    faultsInARow (rs ++ [.error f]) = faultsInARow rs + 1 := by
  simp [faultsInARow, Except.isOk, Except.toBool]

@[simp]
theorem itemsOf_append (hs hs' : List (Happening β)) :
    itemsOf (hs ++ hs') = itemsOf hs ++ itemsOf hs' := List.filterMap_append

@[simp]
theorem itemsOf_work (a : Attempt β) : itemsOf (a.work : List (Happening β)) = [] := by
  unfold Attempt.work
  cases a.takes <;> rfl

@[simp]
theorem startsOf_work (a : Attempt β) : startsOf (a.work : List (Happening β)) = 0 := by
  unfold Attempt.work
  cases a.takes <;> rfl

section Heard

variable {a : Attempt β} {item : β} {f : Fault} (rest : List (Attempt β))

theorem heard_cons_ok (h : a.result = .ok item) : heard (a :: rest) = .ok item :: heard rest := by
  simp only [heard, h]

theorem heard_cons_error (h : a.result = .error f) : heard (a :: rest) = [.error f] := by
  simp only [heard, h]

theorem produced_cons_ok (h : a.result = .ok item) :
    produced (a :: rest) = item :: produced rest := by
  rw [produced, heard_cons_ok rest h]
  rfl

theorem produced_cons_error (h : a.result = .error f) : produced (a :: rest) = [] := by
  rw [produced, heard_cons_error rest h]
  rfl

theorem fault?_cons_ok (h : a.result = .ok item) : fault? (a :: rest) = fault? rest := by
  rw [fault?, heard_cons_ok rest h]
  rfl

theorem fault?_cons_error (h : a.result = .error f) : fault? (a :: rest) = some f := by
  rw [fault?, heard_cons_error rest h]
  rfl

end Heard

/-- Listening to a subscription hands on what it produces, and carries the row of faults on. -/
theorem listen_eq (history : List (Except Fault β)) (subscription : List (Attempt β)) :
    ∃ hs, listen (faultsInARow history) subscription =
        (hs, faultsInARow (history ++ heard subscription), fault? subscription) ∧
      itemsOf hs = produced subscription ∧ startsOf hs = 0 := by
  induction subscription generalizing history with
  | nil => exact ⟨[], by simp [listen, heard, fault?], rfl, rfl⟩
  | cons a rest ih =>
    cases hresult : a.result with
    | ok item =>
      obtain ⟨hs, hlisten, hitems, hstarts⟩ := ih (history ++ [.ok item])
      rw [faultsInARow_append_ok, List.append_assoc] at hlisten
      refine ⟨a.work ++ .deliver item :: hs, ?_, ?_, ?_⟩
      · simp only [listen, hresult, hlisten, heard_cons_ok rest hresult,
          fault?_cons_ok rest hresult, List.singleton_append]
      · rw [itemsOf_append, itemsOf_work, produced_cons_ok rest hresult, ← hitems]
        rfl
      · rw [startsOf_append, startsOf_work, Nat.zero_add]
        exact hstarts
    | error f =>
      refine ⟨a.work, ?_, ?_, startsOf_work a⟩
      · simp only [listen, hresult, heard_cons_error rest hresult, fault?_cons_error rest hresult,
          faultsInARow_append_error]
      · rw [itemsOf_work, produced_cons_error rest hresult]

/-! ## A stream -/

/-- A subscription of a stream.  Past the last one given, there is one that ends at once. -/
def subscription (subscriptions : List (List (Attempt β))) (i : ℕ) : List (Attempt β) :=
  subscriptions.getD i []

/-- What is heard of the first so many subscriptions. -/
def heardOf (subscriptions : List (List (Attempt β))) (n : ℕ) : List (Except Fault β) :=
  (List.range n).flatMap fun i => heard (subscription subscriptions i)

/-- What the first so many subscriptions produce. -/
def producedBy (subscriptions : List (List (Attempt β))) (n : ℕ) : List β :=
  (List.range n).flatMap fun i => produced (subscription subscriptions i)

@[simp]
theorem heardOf_zero (subscriptions : List (List (Attempt β))) : heardOf subscriptions 0 = [] := rfl

@[simp]
theorem producedBy_zero (subscriptions : List (List (Attempt β))) :
    producedBy subscriptions 0 = [] := rfl

theorem heardOf_cons (s : List (Attempt β)) (subscriptions : List (List (Attempt β))) (n : ℕ) :
    heardOf (s :: subscriptions) (n + 1) = heard s ++ heardOf subscriptions n := by
  unfold heardOf
  rw [List.range_succ_eq_map, List.flatMap_cons, List.flatMap_map]
  rfl

theorem producedBy_cons (s : List (Attempt β)) (subscriptions : List (List (Attempt β))) (n : ℕ) :
    producedBy (s :: subscriptions) (n + 1) = produced s ++ producedBy subscriptions n := by
  unfold producedBy
  rw [List.range_succ_eq_map, List.flatMap_cons, List.flatMap_map]
  rfl

/-- How a stream ends whose last subscription ended so. -/
def endOf : Option Fault → CourseEnd Unit
  | none => .success ()
  | some f => .fault f

/-- After subscription `i` there is another one: it ended with a fault that is retried, and not too
many faults have come in a row. -/
def Resumes [Quantity α] (policy : RetryPolicy α) (limit : ℕ) (history : List (Except Fault β))
    (subscriptions : List (List (Attempt β))) (i : ℕ) : Prop :=
  ∃ f, fault? (subscription subscriptions i) = some f ∧ policy.isRetryable f.kind = true ∧
    faultsInARow (history ++ heardOf subscriptions (i + 1)) < limit

section Policies

variable [Quantity α] {policy : RetryPolicy α} {limit : ℕ} {history : List (Except Fault β)}
  {s : List (Attempt β)} {rest : List (List (Attempt β))}

theorem resumes_cons_zero :
    Resumes policy limit history (s :: rest) 0 ↔
      ∃ f, fault? s = some f ∧ policy.isRetryable f.kind = true ∧
        faultsInARow (history ++ heard s) < limit := by
  unfold Resumes
  rw [heardOf_cons, heardOf_zero, List.append_nil]
  rfl

theorem resumes_cons_succ (i : ℕ) :
    Resumes policy limit history (s :: rest) (i + 1) ↔
      Resumes policy limit (history ++ heard s) rest i := by
  unfold Resumes
  rw [heardOf_cons, ← List.append_assoc]
  rfl

variable (samples : ℕ → α) (operation : String)

/-- A subscription that does not resume is the last. -/
theorem ofSubscriptions_of_not_resumes (opened : ℕ)
    (h : ¬ Resumes policy limit history (s :: rest) 0) :
    ∃ hs, ofSubscriptions policy samples operation limit opened (faultsInARow history) (s :: rest) =
        ⟨.start :: hs, opened + 1, endOf (fault? s)⟩ ∧
      itemsOf hs = produced s ∧ startsOf hs = 0 := by
  obtain ⟨hs, hlisten, hitems, hstarts⟩ := listen_eq history s
  refine ⟨hs, ?_, hitems, hstarts⟩
  unfold ofSubscriptions
  rw [hlisten]
  dsimp only
  cases hfault : fault? s with
  | none => rfl
  | some f =>
    have hend : ¬ (policy.isRetryable f.kind && decide (faultsInARow (history ++ heard s) < limit))
        = true := by
      rw [Bool.and_eq_true, decide_eq_true_iff]
      exact fun hf => h (resumes_cons_zero.mpr ⟨f, hfault, hf⟩)
    exact if_neg hend

/-- A subscription that resumes is followed by the next, after a pause. -/
theorem ofSubscriptions_of_resumes (hdelays : policy.HoldsDelays) (opened : ℕ)
    (h : Resumes policy limit history (s :: rest) 0) :
    ∃ hs, ofSubscriptions policy samples operation limit opened (faultsInARow history) (s :: rest) =
        after (.start :: hs) (ofSubscriptions policy samples operation limit (opened + 1)
          (faultsInARow (history ++ heard s)) rest) ∧
      itemsOf hs = produced s ∧ startsOf hs = 0 := by
  obtain ⟨hs, hlisten, hitems, hstarts⟩ := listen_eq history s
  obtain ⟨f, hfault, hretryable, hlimit⟩ := resumes_cons_zero.mp h
  obtain ⟨d, hd⟩ := Option.isSome_iff_exists.mp
    (hdelays (faultsInARow (history ++ heard s) - 1) (samples opened))
  refine ⟨hs ++ [.log (resubscribeLog operation (faultsInARow (history ++ heard s)) f d), .pause d],
    ?_, ?_, ?_⟩
  · rw [ofSubscriptions, hlisten, hfault]
    dsimp only
    rw [if_pos (by rw [hretryable, decide_eq_true hlimit]; rfl), hd]
    rfl
  · rw [itemsOf_append, hitems]
    exact List.append_nil _
  · rw [startsOf_append, hstarts]
    rfl

/-- Subscriptions are opened until one does not resume, and what they produce is handed on. -/
theorem ofSubscriptions_ends (hdelays : policy.HoldsDelays) (limit opened : ℕ)
    (history : List (Except Fault β)) (subscriptions : List (List (Attempt β))) :
    ∃ n, (∀ i < n, Resumes policy limit history subscriptions i) ∧
      ¬ Resumes policy limit history subscriptions n ∧
      let c := ofSubscriptions policy samples operation limit opened (faultsInARow history)
        subscriptions
      c.starts = opened + (n + 1) ∧ startsOf c.happenings = n + 1 ∧
        itemsOf c.happenings = producedBy subscriptions (n + 1) ∧
        c.ending = endOf (fault? (subscription subscriptions n)) := by
  induction subscriptions generalizing opened history with
  | nil =>
    refine ⟨0, fun i hi => absurd hi (Nat.not_lt_zero i), ?_, rfl, rfl, rfl, rfl⟩
    rintro ⟨f, hf, _⟩
    cases hf
  | cons s rest ih =>
    by_cases hresumes : Resumes policy limit history (s :: rest) 0
    · obtain ⟨hs, hcourse, hitems, hstarts⟩ :=
        ofSubscriptions_of_resumes samples operation hdelays opened hresumes
      obtain ⟨n, hbefore, hlast, hopened, hstarts', hitems', hending⟩ :=
        ih (opened + 1) (history ++ heard s)
      refine ⟨n + 1, ?_, (resumes_cons_succ n).not.mpr hlast, ?_⟩
      · intro i hi
        cases i with
        | zero => exact hresumes
        | succ i => exact (resumes_cons_succ i).mpr (hbefore i (Nat.lt_of_succ_lt_succ hi))
      · dsimp only
        rw [hcourse]
        refine ⟨?_, ?_, ?_, hending⟩
        · exact hopened.trans (by omega)
        · show startsOf ((.start :: hs) ++ _) = _
          rw [startsOf_append, hstarts', startsOf_start_cons, hstarts]
          omega
        · show itemsOf ((.start :: hs) ++ _) = _
          rw [itemsOf_append, hitems', producedBy_cons]
          exact congrArg (· ++ _) hitems
    · obtain ⟨hs, hcourse, hitems, hstarts⟩ :=
        ofSubscriptions_of_not_resumes samples operation opened hresumes
      refine ⟨0, fun i hi => absurd hi (Nat.not_lt_zero i), hresumes, ?_⟩
      dsimp only
      rw [hcourse]
      refine ⟨rfl, ?_, ?_, rfl⟩
      · rw [startsOf_start_cons, hstarts]
      · rw [producedBy_cons, producedBy_zero, List.append_nil]
        exact hitems

end Policies

/-! ## A reader that stops -/

@[simp]
theorem itemsOf_deliver_cons (item : β) (hs : List (Happening β)) :
    itemsOf (.deliver item :: hs) = item :: itemsOf hs := rfl

theorem itemsOf_cons_of_ne {h : Happening β} (hne : ∀ item, h ≠ .deliver item)
    (hs : List (Happening β)) : itemsOf (h :: hs) = itemsOf hs := by
  cases h with
  | deliver item => exact absurd rfl (hne item)
  | _ => rfl

/-- A reader who stops after so many items has been handed the beginning of the course up to the
last of them.  One who asks for more than there is reads to the end. -/
theorem cutAfter_eq (wanted : ℕ) (hs : List (Happening β)) :
    ∃ taken, cutAfter wanted hs = (taken, decide (wanted ≤ (itemsOf hs).length)) ∧ taken <+: hs ∧
      itemsOf taken = (itemsOf hs).take wanted ∧ ((itemsOf hs).length < wanted → taken = hs) := by
  fun_induction cutAfter wanted hs with
  | case1 hs => exact ⟨[], rfl, List.nil_prefix, rfl, fun h => absurd h (Nat.not_lt_zero _)⟩
  | case2 wanted => exact ⟨[], rfl, List.prefix_refl [], rfl, fun _ => rfl⟩
  | case3 wanted item rest hs enough hcut ih =>
    obtain ⟨taken, heq, hprefix, hitems, hall⟩ := ih
    rw [hcut] at heq
    obtain ⟨rfl, rfl⟩ := Prod.mk.inj heq
    refine ⟨.deliver item :: hs, ?_, (List.prefix_cons_inj _).mpr hprefix, ?_, fun h => ?_⟩
    · simp only [itemsOf_deliver_cons, List.length_cons, Nat.succ_le_succ_iff]
    · simp only [itemsOf_deliver_cons, List.take_succ_cons, hitems]
    · rw [hall (Nat.lt_of_succ_lt_succ h)]
  | case4 wanted h rest hne hs enough hcut ih =>
    obtain ⟨taken, heq, hprefix, hitems, hall⟩ := ih
    rw [hcut] at heq
    obtain ⟨rfl, rfl⟩ := Prod.mk.inj heq
    have hskip := itemsOf_cons_of_ne (h := h) hne
    refine ⟨h :: hs, by rw [hskip], (List.prefix_cons_inj _).mpr hprefix, ?_, fun hlt => ?_⟩
    · rw [hskip, hskip, hitems]
    · rw [hskip] at hlt
      rw [hall hlt]

end Bulwark.Course
