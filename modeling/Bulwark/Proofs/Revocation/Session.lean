import Bulwark.Proofs.Halt
import Bulwark.Proofs.Revocation.Entry
import Bulwark.Proofs.Store.Gate
import Bulwark.Revocation.Call

/-!
# Calls of a blacklist that end

`Ends x s Q` says that a call started in a session does not halt, and that its answer and the
session after it are as described.  There is one rule for each way to put calls together and for
each primitive.  The rule for a store call has two cases, as a gate has: the call is refused and
the store is as before, or the store has answered.
-/

namespace Bulwark.Blacklist

/-- A call ends, with an answer and a session as described. -/
def Ends {β : Type} (x : Action β) (s : Session) (Q : β → Session → Prop) : Prop :=
  ∃ answer t, x s = .ok (answer, t) ∧ Q answer t

section Rules

variable {β γ : Type} {s : Session}

theorem Ends.pure {Q : β → Session → Prop} {answer : β} (h : Q answer s) :
    Ends (pure answer : Action β) s Q := ⟨answer, s, rfl, h⟩

theorem Ends.bind {x : Action β} {f : β → Action γ} {Q : γ → Session → Prop}
    (h : Ends x s fun answer t => Ends (f answer) t Q) : Ends (x >>= f) s Q := by
  obtain ⟨answer, t, hx, answer', t', hf, hQ⟩ := h
  refine ⟨answer', t', ?_, hQ⟩
  show (x s).bind (fun p => f p.1 p.2) = _
  rw [hx]
  exact hf

theorem Ends.mono {x : Action β} {Q Q' : β → Session → Prop} (h : Ends x s Q)
    (himp : ∀ answer t, Q answer t → Q' answer t) : Ends x s Q' := by
  obtain ⟨answer, t, hx, hQ⟩ := h
  exact ⟨answer, t, hx, himp answer t hQ⟩

theorem Ends.map {x : Action β} {f : β → γ} {Q : γ → Session → Prop}
    (h : Ends x s fun answer t => Q (f answer) t) : Ends (do return f (← x)) s Q :=
  Ends.bind (h.mono fun _ _ hQ => Ends.pure hQ)

theorem Ends.report {events : List Event} {Q : Unit → Session → Prop}
    (h : Q () { s with events := s.events ++ events }) : Ends (report events) s Q :=
  ⟨(), _, rfl, h⟩

theorem Ends.count {f : RevocationCount → RevocationCount} {Q : Unit → Session → Prop}
    (h : Q () { s with counts := f s.counts }) : Ends (count f) s Q := ⟨(), _, rfl, h⟩

theorem Ends.get {Q : Session → Session → Prop} (h : Q s s) : Ends (get : Action Session) s Q :=
  ⟨s, s, rfl, h⟩

theorem Ends.ofClock_of_inRange {now : Instant} {Q : Timestamp → Session → Prop}
    (hnow : Timestamp.inRange now.second = true) (h : Q now.date s) :
    Ends (Timestamp.ofClock now) s Q := by
  refine ⟨now.date, s, ?_, h⟩
  unfold Timestamp.ofClock
  rw [show Timestamp.ofInstant? now = some now.date from if_pos hnow]

theorem Ends.ofClock {now : Instant} {Q : Timestamp → Session → Prop} (hnow : now.IsDated)
    (h : Q now.date s) : Ends (Timestamp.ofClock now) s Q :=
  Ends.ofClock_of_inRange hnow.inRange h

/-- A call that ends after dating the clock's reading had a date for it. -/
theorem inRange_of_ofClock {now : Instant} {f : Timestamp → Action β} {p : β × Session}
    (h : (Timestamp.ofClock now >>= f) s = .ok p) : Timestamp.inRange now.second = true := by
  by_contra hrange
  have hclock : (Timestamp.ofClock now : Action Timestamp) s = .error .undatable := by
    unfold Timestamp.ofClock Timestamp.ofInstant?
    rw [if_neg hrange]
  cases (bind_of_error hclock).symm.trans h

/-- What goes on from a date has had one. -/
theorem ofClock_bind_ifEnds {now : Instant} {f : Timestamp → Action β} {Q : β → Session → Prop}
    (h : Timestamp.inRange now.second = true → IfEnds (f now.date) s Q) :
    IfEnds (Timestamp.ofClock now >>= f) s Q := by
  intro answer t hends
  have hnow := inRange_of_ofClock hends
  have hclock : (Timestamp.ofClock now : Action Timestamp) s = .ok (now.date, s) := by
    unfold Timestamp.ofClock
    rw [show Timestamp.ofInstant? now = some now.date from if_pos hnow]
  rw [bind_of_ok hclock] at hends
  exact h hnow answer t hends

/-- A call of the store, of whatever it answers. -/
theorem callStore_ifEnds {operation : Store → Store.Result β}
    {Q : Except StoreError β → Session → Prop}
    (h : Q (s.gate.call operation).1 { s with gate := (s.gate.call operation).2 }) :
    IfEnds (callStore operation) s Q := by
  rintro _ _ ⟨⟩
  exact h

/-- A store call is refused, or answered by the store, and changes nothing but the gate. -/
theorem Ends.callStore_gate {operation : Store → Store.Result β}
    {Q : Except StoreError β → Session → Prop}
    (hrefused : ∀ e, s.gate.refusal? = some e → Q (.error e) { s with gate := s.gate.next })
    (hanswered : s.gate.refusal? = none → Q (operation s.gate.store).1
      { s with gate := { s.gate.next with store := (operation s.gate.store).2 } }) :
    Ends (callStore operation) s Q := by
  refine ⟨(s.gate.call operation).1, { s with gate := (s.gate.call operation).2 }, rfl, ?_⟩
  cases h : s.gate.refusal? with
  | some e =>
    rw [Gate.call_of_refusal h]
    exact hrefused e h
  | none =>
    rw [Gate.call_of_pass h]
    exact hanswered h

/-- A store call is refused, or answered by the store. -/
theorem Ends.callStore {operation : Store → Store.Result β}
    {Q : Except StoreError β → Session → Prop}
    (hrefused : ∀ e t, s.gate.refusal? = some e → t.gate.store = s.gate.store → Q (.error e) t)
    (hanswered : ∀ t, s.gate.refusal? = none → t.gate.store = (operation s.gate.store).2 →
      Q (operation s.gate.store).1 t) :
    Ends (Blacklist.callStore operation) s Q :=
  Ends.callStore_gate (fun e h => hrefused e _ h (Gate.next_store _)) fun h => hanswered _ h rfl

/-- Past an open gate the store answers, and the gate stays open. -/
theorem Ends.callStore_open {operation : Store → Store.Result β}
    {Q : Except StoreError β → Session → Prop} (hopen : s.gate.IsOpen)
    (hanswered : ∀ t, t.gate.IsOpen → t.gate.store = (operation s.gate.store).2 →
      Q (operation s.gate.store).1 t) :
    Ends (Blacklist.callStore operation) s Q := by
  refine Ends.callStore_gate (fun e h => ?_) fun _ => hanswered _ ?_ rfl
  · rw [hopen.refusal?] at h
    cases h
  · exact ⟨hopen.next.plan_nil, hopen.next.connected⟩

end Rules

end Bulwark.Blacklist
