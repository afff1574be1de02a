import Mathlib.Data.List.ReduceOption
import Bulwark.Proofs.Revocation.Session
import Bulwark.Proofs.Store.Walk

/-!
# Store calls one after the other

What an action does to a store can be written down as the list of its store calls, each with the key
that it deletes, if it deletes one.  `Follows` says that an action makes the calls of such a list,
up to one that fails, and counts what it deletes.  There is one rule for each way to put actions
together, so lists are put together as actions are.

A call fails if the gate refuses it.  The one other failure is that a hash stands where a text is to
be read.
-/

namespace Bulwark.Blacklist

/-- A session after so many store calls, some of which have deleted keys, each of them counted. -/
def Session.after (s : Session) (now : Instant) (calls : List (Option String)) : Session where
  gate := { Gate.next^[calls.length] s.gate with
    store := Store.deleteAll now s.gate.store calls.reduceOption }
  counts := { s.counts with
    removed := s.counts.removed + UInt64.ofNat calls.reduceOption.length }
  events := s.events

/-- A session after a call that has failed, after so many that have not. -/
def Session.afterFailure (s : Session) (now : Instant) (calls : List (Option String)) : Session :=
  { s.after now calls with gate := (s.after now calls).gate.next }

/-- The first store calls of a list pass the gate. -/
def Session.passes (s : Session) (n : ℕ) : Prop := ∀ i < n, (Gate.next^[i] s.gate).refusal? = none

/-- Some hash under a key with the prefix, with the error for whoever reads it as a text. -/
def Session.blocks (s : Session) (keyPrefix : String) (now : Instant) (e : StoreError) : Prop :=
  ∃ key fields deadline, Text.startsWith keyPrefix key = true ∧
    s.gate.store.visible? now key = some ⟨.hash fields, deadline⟩ ∧ e = Store.wrongType key

/-- An action makes store calls, each of which deletes a key or none, up to one that fails. -/
inductive Follows {β : Type} (keyPrefix : String) (now : Instant) (s : Session)
    (calls : List (Option String)) (value : β) : Except StoreError β → Session → Prop
  /-- All calls have been made. -/
  | done (passed : s.passes calls.length) :
      Follows keyPrefix now s calls value (.ok value) (s.after now calls)
  /-- The gate refuses a call, or there is a hash where a text is read. -/
  | failed {made : List (Option String)} {call : Option String} {rest : List (Option String)}
      {e : StoreError} (split : calls = made ++ call :: rest) (passed : s.passes made.length)
      (why : (s.after now made).gate.refusal? = some e ∨ s.blocks keyPrefix now e) :
      Follows keyPrefix now s calls value (.error e) (s.afterFailure now made)

section Following

variable {β γ : Type} {s t : Session} {now : Instant} {keyPrefix : String}
  {calls calls' : List (Option String)} {v : β} {w : γ}

theorem Session.after_nil : s.after now [] = s := by
  unfold Session.after
  simp [Store.deleteAll]

theorem Session.after_none :
    s.after now [none] = { s with gate := { s.gate.next with store := s.gate.store } } := by
  unfold Session.after
  simp [Store.deleteAll]

theorem Session.after_some (key : String) :
    s.after now [some key] = { s with
      gate := { s.gate.next with store := (s.gate.store.delete now key).2 }
      counts := s.counts.recordRemoved } := by
  unfold Session.after
  simp [Store.deleteAll, RevocationCount.recordRemoved]

theorem Session.afterFailure_nil : s.afterFailure now [] = { s with gate := s.gate.next } := by
  unfold Session.afterFailure
  rw [Session.after_nil]

theorem Session.after_append :
    s.after now (calls ++ calls') = (s.after now calls).after now calls' := by
  unfold Session.after
  simp only [List.reduceOption_append, Store.deleteAll_append, List.length_append,
    Gate.iterate_next_withStore, ← Function.iterate_add_apply, UInt64.ofNat_add,
    UInt64.add_assoc, Nat.add_comm]

theorem Session.passes_append (h : s.passes calls.length)
    (h' : (s.after now calls).passes calls'.length) : s.passes (calls ++ calls').length := by
  intro i hi
  by_cases hfirst : i < calls.length
  · exact h i hfirst
  · have hsecond := h' (i - calls.length) (by rw [List.length_append] at hi; omega)
    unfold Session.after at hsecond
    rw [Gate.iterate_next_withStore, ← Function.iterate_add_apply,
      Nat.sub_add_cancel (Nat.not_lt.mp hfirst)] at hsecond
    exact hsecond

/-- Deleting puts no hash in the way. -/
theorem Session.blocks_of_after {e : StoreError} (h : (s.after now calls).blocks keyPrefix now e) :
    s.blocks keyPrefix now e := by
  obtain ⟨key, fields, deadline, hstart, hvisible, herror⟩ := h
  refine ⟨key, fields, deadline, hstart, ?_, herror⟩
  unfold Session.after at hvisible
  rw [Store.visible?_deleteAll] at hvisible
  split at hvisible
  · cases hvisible
  · exact hvisible

/-- Nothing is left to be done. -/
theorem Follows.nil : Follows keyPrefix now s [] v (.ok v) s := by
  have hdone : Follows keyPrefix now s [] v (.ok v) (s.after now []) := .done nofun
  rwa [Session.after_nil] at hdone

/-- What follows calls is followed by what goes on from there. -/
theorem Follows.append {answer : Except StoreError γ} (h : s.passes calls.length)
    (h' : Follows keyPrefix now (s.after now calls) calls' w answer t) :
    Follows keyPrefix now s (calls ++ calls') w answer t := by
  cases h' with
  | done passed =>
    rw [← Session.after_append]
    exact .done (Session.passes_append h passed)
  | @failed made call rest e split passed why =>
    have hwhy : (s.after now (calls ++ made)).gate.refusal? = some e ∨
        s.blocks keyPrefix now e := by
      rw [Session.after_append]
      exact why.imp_right Session.blocks_of_after
    have hfailed : Follows keyPrefix now s (calls ++ calls') w (.error e)
        (s.afterFailure now (calls ++ made)) :=
      .failed (by rw [split, List.append_assoc]) (Session.passes_append h passed) hwhy
    unfold Session.afterFailure at hfailed ⊢
    rwa [Session.after_append] at hfailed

/-- An action that follows calls, and one that goes on from there unless they have failed. -/
theorem Follows.bind {x : Action (Except StoreError β)}
    {k : Except StoreError β → Action (Except StoreError γ)}
    (hx : Ends x s (Follows keyPrefix now s calls v))
    (herror : ∀ e, k (.error e) = pure (.error e))
    (hok : Ends (k (.ok v)) (s.after now calls)
      (Follows keyPrefix now (s.after now calls) calls' w)) :
    Ends (x >>= k) s (Follows keyPrefix now s (calls ++ calls') w) := by
  refine Ends.bind (hx.mono fun answer t hfollows => ?_)
  cases hfollows with
  | done passed => exact hok.mono fun _ _ hrest => .append passed hrest
  | @failed made call rest e split passed why =>
    have hsplit : calls ++ calls' = made ++ call :: (rest ++ calls') := by
      rw [split, List.append_assoc, List.cons_append]
    rw [herror]
    exact Ends.pure (.failed hsplit passed why)

/-- An action that follows calls, and a value made of its own. -/
theorem Follows.map {x : Action (Except StoreError β)}
    {k : Except StoreError β → Action (Except StoreError γ)}
    (hx : Ends x s (Follows keyPrefix now s calls v))
    (herror : ∀ e, k (.error e) = pure (.error e)) (hok : k (.ok v) = pure (.ok w)) :
    Ends (x >>= k) s (Follows keyPrefix now s calls w) := by
  rw [← List.append_nil calls]
  refine Follows.bind hx herror ?_
  rw [hok]
  exact Ends.pure .nil

/-- A call that passes the gate. -/
theorem Follows.single {call : Option String} (h : s.gate.refusal? = none) :
    Follows keyPrefix now s [call] v (.ok v) (s.after now [call]) := by
  refine .done fun i hi => ?_
  obtain rfl : i = 0 := Nat.lt_one_iff.mp hi
  exact h

/-- A call that is refused. -/
theorem Follows.refused {call : Option String} {e : StoreError}
    (why : s.gate.refusal? = some e ∨ s.blocks keyPrefix now e) :
    Follows keyPrefix now s [call] v (.error e) { s with gate := s.gate.next } := by
  have hfailed : Follows keyPrefix now s [call] v (.error e) (s.afterFailure now []) :=
    .failed rfl nofun (by rw [Session.after_nil]; exact why)
  rwa [Session.afterFailure_nil] at hfailed

/-- A store call that changes nothing. -/
theorem follows_callStore {operation : Store → Store.Result β}
    (h : operation s.gate.store = (.ok v, s.gate.store)) :
    Ends (callStore operation) s (Follows keyPrefix now s [none] v) := by
  refine Ends.callStore_gate (fun e hrefusal => .refused (.inl hrefusal)) fun hpass => ?_
  rw [h, ← Session.after_none]
  exact .single hpass

end Following

end Bulwark.Blacklist
