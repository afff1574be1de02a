import Mathlib.Logic.Function.Iterate
import Bulwark.Store.Gate

/-!
# What a gate lets through

Whether a call gets past a gate is decided before the store is asked: by the next item of the plan,
or else by the switch.  `Gate.refusal?` is that decision and `Gate.next` the gate after it, so
`call_eq` describes every call by the two and by what the operation does to the store.
-/

namespace Bulwark.Gate

/-- The error that ends the next call before it reaches the store, if one does. -/
def refusal? (g : Gate) : Option StoreError :=
  match g.plan with
  | some e :: _ => some e
  | _ => if g.failing then some connectionRefused else none

/-- The gate after the next call, apart from what the call does to the store. -/
def next (g : Gate) : Gate :=
  match g.plan with
  | some _ :: rest => { g with plan := rest }
  | none :: rest => { g with plan := rest, calls := g.calls + 1 }
  | [] => { g with calls := g.calls + 1 }

@[simp]
theorem next_store (g : Gate) : g.next.store = g.store := by
  unfold next
  split <;> rfl

@[simp]
theorem next_position (g : Gate) : g.next.position = g.position := by
  unfold next
  split <;> rfl

@[simp]
theorem next_failing (g : Gate) : g.next.failing = g.failing := by
  unfold next
  split <;> rfl

/-- What a gate does with calls does not depend on the store behind it. -/
theorem next_withStore (g : Gate) (store : Store) :
    { g with store }.next = { g.next with store } := by
  obtain ⟨_, _, plan, _, _⟩ := g
  match plan with
  | some _ :: _ => rfl
  | none :: _ => rfl
  | [] => rfl

theorem iterate_next_withStore (g : Gate) (store : Store) (n : ℕ) :
    next^[n] { g with store } = { next^[n] g with store } := by
  induction n generalizing g with
  | zero => rfl
  | succ n ih =>
    rw [Function.iterate_succ_apply, Function.iterate_succ_apply, next_withStore, ih]

theorem iterate_next_position (g : Gate) (n : ℕ) : (next^[n] g).position = g.position := by
  induction n generalizing g with
  | zero => rfl
  | succ n ih => rw [Function.iterate_succ_apply, ih, next_position]

/-- A call is refused before the store is asked, or answered by the store. -/
theorem call_eq {β : Type} (g : Gate) (operation : Store → Store.Result β) :
    g.call operation =
      match g.refusal? with
      | some e => (.error e, g.next)
      | none => ((operation g.store).1, { g.next with store := (operation g.store).2 }) := by
  obtain ⟨store, position, plan, failing, calls⟩ := g
  match plan with
  | some _ :: _ => rfl
  | none :: _ => cases failing <;> rfl
  | [] => cases failing <;> rfl

theorem call_of_refusal {β : Type} {g : Gate} {e : StoreError} (h : g.refusal? = some e)
    (operation : Store → Store.Result β) : g.call operation = (.error e, g.next) := by
  rw [call_eq, h]

theorem call_of_pass {β : Type} {g : Gate} (h : g.refusal? = none)
    (operation : Store → Store.Result β) :
    g.call operation = ((operation g.store).1, { g.next with store := (operation g.store).2 }) := by
  rw [call_eq, h]

/-- Nothing is planned, and the connection is on. -/
structure IsOpen (g : Gate) : Prop where
  plan_nil : g.plan = []
  connected : g.failing = false

theorem IsOpen.refusal? {g : Gate} (h : g.IsOpen) : g.refusal? = none := by
  unfold Gate.refusal?
  rw [h.plan_nil, h.connected]
  rfl

/-- An open gate stays open. -/
theorem IsOpen.next {g : Gate} (h : g.IsOpen) : g.next.IsOpen := by
  refine ⟨?_, (next_failing g).trans h.connected⟩
  unfold Gate.next
  rw [h.plan_nil]

theorem IsOpen.iterate_next {g : Gate} (h : g.IsOpen) (n : ℕ) : (Gate.next^[n] g).IsOpen := by
  induction n generalizing g with
  | zero => exact h
  | succ n ih => exact ih h.next

end Bulwark.Gate
