import Bulwark.Event
import Bulwark.Fault
import Bulwark.Halt
import Bulwark.Retry

/-!
# The course of a guarded operation

An operation is guarded by trying it again.  What happens on the way is a list of `Happening`s in
order: the operation is started, it works for a while, the guard pauses, items are delivered,
entries are logged.  The list holds no clock; `Course.clocked` reads it against one that ticks in
milliseconds, and `Course.within` cuts it off at a deadline.

`Course.ofAttempts` is the course of an operation with one result, `Course.ofSubscriptions` that of
a stream.  Both say how it ends and leave the consequences to the engine.

A policy may allow more attempts than anyone can wait for, so an operation with a deadline is run by
`Course.attemptsWithin`, which stops where the deadline does.  The main statement is that it gives
what `Course.within` leaves of `Course.ofAttempts`.
-/

namespace Bulwark

/-- What an operation does when it is started, or a stream when it is asked for the next item: it
works for a while, or answers at once, and then there is a result or a fault. -/
structure Attempt (β : Type) where
  /-- How long it works, if it does not answer at once.  Work may take no time at all. -/
  takes : Option Duration
  result : Except Fault β

/-- A step in the course of a guarded operation. -/
inductive Happening (β : Type) where
  /-- The guard waits. -/
  | pause (d : Duration)
  /-- The operation is started, or the stream is subscribed to. -/
  | start
  /-- The operation works. -/
  | work (d : Duration)
  /-- An item of a stream is handed on. -/
  | deliver (item : β)
  | log (entry : LogEntry)

namespace Happening

variable {β : Type}

/-- The longest time that a timer runs: thirty years of 365 days. -/
def longestTimer : Duration := .ofSeconds (30 * 365 * 86400)

/-- The milliseconds that a timer runs for a step, if one does. -/
def timer? : Happening β → Option Nat
  | .pause d => some (d.shorter longestTimer).ticks
  | .work d => some (d.shorter longestTimer).ticks
  | _ => none

/-- How long a step takes, in milliseconds. -/
def ticks (h : Happening β) : Nat := h.timer?.getD 0

end Happening

/-- What happens up to the result of an attempt. -/
def Attempt.work {β γ : Type} (a : Attempt β) : List (Happening γ) :=
  (a.takes.map Happening.work).toList

/-- What happens when an operation is started. -/
def Attempt.happenings {β γ : Type} (a : Attempt β) : List (Happening γ) := .start :: a.work

/-- How a guarded operation ends. -/
inductive CourseEnd (β : Type) where
  /-- With a result. -/
  | success (value : β)
  /-- With a fault that is not retried any more. -/
  | fault (f : Fault)
  /-- With a delay that cannot be held. -/
  | halt

/-- The end of an operation whose last attempt had this result. -/
def CourseEnd.ofResult {β : Type} : Except Fault β → CourseEnd β
  | .ok value => .success value
  | .error f => .fault f

/-- What an attempt leads to while there are retries left. -/
inductive Sequel (β : Type) where
  | ending (e : CourseEnd β)
  /-- A retry, after some more has happened. -/
  | retry (before : List (Happening Empty))

/-- What happens to a guarded operation. -/
structure Course (β γ : Type) where
  happenings : List (Happening β)
  /-- How often the operation was started. -/
  starts : Nat
  ending : CourseEnd γ

namespace Course

variable {α β γ : Type}

/-- A course with something before it. -/
def after (before : List (Happening β)) (c : Course β γ) : Course β γ :=
  { c with happenings := before ++ c.happenings }

/-- The pause before the first start, if there is one. -/
def preDelay (d : Duration) : List (Happening β) := if d = .zero then [] else [.pause d]

/-- The log entry for a retry. -/
def retryLog (operation : String) (attempts : Nat) (f : Fault) (delay : Duration) : LogEntry :=
  .of .debug "Retrying after failure"
    [("operation", operation), ("attempt", Nat.repr attempts), ("error_class", f.kind.name),
      ("delay_ms", Nat.repr (min Text.maxUnsigned delay.millis))]

/-- The log entry for a new subscription. -/
def resubscribeLog (operation : String) (faults : Nat) (f : Fault) (delay : Duration) : LogEntry :=
  .of .debug "Resubscribing after stream fault"
    [("operation", operation), ("fault", Nat.repr faults), ("error_class", f.kind.name),
      ("delay_ms", Nat.repr (min Text.maxUnsigned delay.millis))]

section Policies

variable [Quantity α] (policy : RetryPolicy α) (samples : Nat → α) (operation : String)

/-- What follows attempt `n`, counted from zero, while there are retries left.  The delay before
retry `n` is spread by `samples n`. -/
def sequel (n : Nat) : Except Fault β → Sequel β
  | .ok value => .ending (.success value)
  | .error f =>
    if policy.isRetryable f.kind then
      match policy.jitteredDelay? n (samples n) with
      | none => .ending .halt
      | some delay => .retry [.log (retryLog operation (n + 1) f delay), .pause delay]
    else .ending (.fault f)

/-- The course from attempt `n` on, with so many retries left.  Attempt `i` does what `attempt i`
says. -/
def ofAttempts (attempt : Nat → Attempt β) : (retriesLeft n : Nat) → Course Empty β
  | 0, n => ⟨(attempt n).happenings, n + 1, .ofResult (attempt n).result⟩
  | left + 1, n =>
    match sequel policy samples operation n (attempt n).result with
    | .ending e => ⟨(attempt n).happenings, n + 1, e⟩
    | .retry hs => after ((attempt n).happenings ++ hs) (ofAttempts attempt left (n + 1))

/-- What one subscription brings up to its first fault: what happens, the faults in a row at the
end, and the fault, if there is one.  Every item ends a row of faults. -/
def listen : (faults : Nat) → List (Attempt β) → List (Happening β) × Nat × Option Fault
  | faults, [] => ([], faults, none)
  | faults, a :: rest =>
    match a.result with
    | .ok item =>
      let (hs, faults, f) := listen 0 rest
      (a.work ++ .deliver item :: hs, faults, f)
    | .error f => (a.work, faults + 1, some f)

/-- The course of a stream from a subscription on, after so many subscriptions and faults in a row.
Past the last subscription given, there is one that ends at once. -/
def ofSubscriptions (limit : Nat) :
    (opened faults : Nat) → List (List (Attempt β)) → Course β Unit
  | opened, _, [] => ⟨[.start], opened + 1, .success ()⟩
  | opened, faults, subscription :: rest =>
    let (hs, faults, f) := listen faults subscription
    let before := .start :: hs
    match f with
    | none => ⟨before, opened + 1, .success ()⟩
    | some f =>
      if policy.isRetryable f.kind && decide (faults < limit) then
        match policy.jitteredDelay? (faults - 1) (samples opened) with
        | none => ⟨before, opened + 1, .halt⟩
        | some delay =>
          after (before ++ [.log (resubscribeLog operation faults f delay), .pause delay])
            (ofSubscriptions limit (opened + 1) faults rest)
      else ⟨before, opened + 1, .fault f⟩

end Policies

/-! ## Reading a course -/

/-- The log entries of a course. -/
def logOf (hs : List (Happening β)) : List LogEntry :=
  hs.filterMap fun
    | .log entry => some entry
    | _ => none

/-- The items that a course delivers. -/
def itemsOf (hs : List (Happening β)) : List β :=
  hs.filterMap fun
    | .deliver item => some item
    | _ => none

/-- The pauses of a course. -/
def pausesOf (hs : List (Happening β)) : List Duration :=
  hs.filterMap fun
    | .pause d => some d
    | _ => none

/-- The times of the starts and of the end, in milliseconds from `elapsed` on. -/
def clocked : (elapsed : Nat) → List (Happening β) → List Nat × Nat
  | elapsed, [] => ([], elapsed)
  | elapsed, .start :: rest =>
    let (starts, finish) := clocked elapsed rest
    (elapsed :: starts, finish)
  | elapsed, h :: rest => clocked (elapsed + h.ticks) rest

/-- What happens until so many items are delivered, and whether there are that many. -/
def cutAfter : (count : Nat) → List (Happening β) → List (Happening β) × Bool
  | 0, _ => ([], true)
  | _ + 1, [] => ([], false)
  | count + 1, .deliver item :: rest =>
    let (hs, enough) := cutAfter count rest
    (.deliver item :: hs, enough)
  | count + 1, h :: rest =>
    let (hs, enough) := cutAfter (count + 1) rest
    (h :: hs, enough)

/-! ## Deadlines

The deadline is looked at whenever there is something to wait for, so what ends exactly at it still
happens.  It is also looked at after `Watch.burst` timers that ran out without a wait, so no more
than that many run out at the deadline itself. -/

/-- A clock that runs against a deadline. -/
structure Watch where
  /-- The milliseconds that have passed. -/
  elapsed : Nat
  /-- The timers that have run out at the deadline itself. -/
  atDeadline : Nat
  deriving DecidableEq, Repr

namespace Watch

/-- No time has passed. -/
def start : Watch := ⟨0, 0⟩

/-- The timers that may run out at the deadline before it is looked at. -/
def burst : Nat := 128

/-- The watch after a step, unless the deadline comes first. -/
def after? (deadline : Nat) (w : Watch) (h : Happening β) : Option Watch :=
  match h.timer? with
  | none => some w
  | some ms =>
    let elapsed := w.elapsed + ms
    if elapsed < deadline then some ⟨elapsed, 0⟩
    else if elapsed = deadline ∧ w.atDeadline < burst then some ⟨elapsed, w.atDeadline + 1⟩
    else none

end Watch

/-- What happens up to a deadline and, if that is all, the watch after it. -/
def cutAt (deadline : Nat) : Watch → List (Happening β) → List (Happening β) × Option Watch
  | w, [] => ([], some w)
  | w, h :: rest =>
    match w.after? deadline h with
    | none => ([], none)
    | some w =>
      let (hs, all) := cutAt deadline w rest
      (h :: hs, all)

/-- What a deadline leaves of a course. -/
inductive Cut (β γ : Type) where
  /-- All of it. -/
  | whole (c : Course β γ)
  /-- What happens up to the deadline. -/
  | part (happenings : List (Happening β))

namespace Cut

/-- What happens. -/
def happenings : Cut β γ → List (Happening β)
  | whole c => c.happenings
  | part hs => hs

/-- A cut course with something before it. -/
def after (before : List (Happening β)) : Cut β γ → Cut β γ
  | whole c => whole (c.after before)
  | part hs => part (before ++ hs)

end Cut

/-- What a deadline leaves of a course that begins when the watch says. -/
def within (deadline : Nat) (w : Watch) (c : Course β γ) : Cut β γ :=
  match cutAt deadline w c.happenings with
  | (_, some _) => .whole c
  | (hs, none) => .part hs

/-- What a deadline leaves of some happenings and, if they are over in time, of what begins then. -/
def thenWithin (deadline : Nat) (w : Watch) (before : List (Happening β))
    (rest : Watch → Cut β γ) : Cut β γ :=
  match cutAt deadline w before with
  | (_, some w) => (rest w).after before
  | (hs, none) => .part hs

/-- What a deadline leaves of the course from attempt `n` on.  No attempt is looked at that would be
started after the deadline. -/
def attemptsWithin [Quantity α] (policy : RetryPolicy α) (samples : Nat → α) (operation : String)
    (deadline : Nat) (attempt : Nat → Attempt β) :
    Watch → (retriesLeft n : Nat) → Cut Empty β
  | w, 0, n => within deadline w ⟨(attempt n).happenings, n + 1, .ofResult (attempt n).result⟩
  | w, left + 1, n =>
    match sequel policy samples operation n (attempt n).result with
    | .ending e => within deadline w ⟨(attempt n).happenings, n + 1, e⟩
    | .retry hs =>
      thenWithin deadline w ((attempt n).happenings ++ hs) fun w =>
        attemptsWithin policy samples operation deadline attempt w left (n + 1)

/-- A list is cut in its first part, or where its second part is when the watch goes on. -/
theorem cutAt_append (deadline : Nat) (w : Watch) (xs ys : List (Happening β)) :
    cutAt deadline w (xs ++ ys) =
      match cutAt deadline w xs with
      | (_, some w) => (xs ++ (cutAt deadline w ys).1, (cutAt deadline w ys).2)
      | (hs, none) => (hs, none) := by
  induction xs generalizing w with
  | nil => rfl
  | cons h xs ih =>
    simp only [List.cons_append, cutAt]
    cases w.after? deadline h with
    | none => rfl
    | some w =>
      simp only [ih]
      rcases cutAt deadline w xs with ⟨hs, _ | _⟩ <;> rfl

/-- A deadline meets what comes first before it meets the rest. -/
theorem within_after (deadline : Nat) (w : Watch) (before : List (Happening β))
    (c : Course β γ) :
    within deadline w (c.after before) =
      thenWithin deadline w before fun w => within deadline w c := by
  simp only [within, thenWithin, after, cutAt_append]
  rcases cutAt deadline w before with ⟨hs, _ | w⟩
  · rfl
  · dsimp only
    rcases cutAt deadline w c.happenings with ⟨hs, _ | _⟩ <;> rfl

/-- Stopping at the deadline leaves what cutting the whole course leaves. -/
theorem attemptsWithin_eq_within [Quantity α] (policy : RetryPolicy α) (samples : Nat → α)
    (operation : String) (deadline : Nat) (attempt : Nat → Attempt β) (w : Watch) (left n : Nat) :
    attemptsWithin policy samples operation deadline attempt w left n =
      within deadline w (ofAttempts policy samples operation attempt left n) := by
  induction left generalizing w n with
  | zero => rfl
  | succ left ih =>
    rw [attemptsWithin, ofAttempts]
    cases sequel policy samples operation n (attempt n).result with
    | ending e => rfl
    | retry hs => simp only [within_after, ih]

end Course
end Bulwark
