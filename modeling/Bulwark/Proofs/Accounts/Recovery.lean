import Bulwark.Proofs.Accounts.Occurrence
import Bulwark.Proofs.Halt
import Bulwark.Proofs.Recovery.Subscriptions
import Bulwark.Recovery.Call

/-!
# The accounts of a recovery engine

An operation or a stream that has ended is counted once, by the way in which it has ended, and one
that is given up or dropped before its end is not counted.  Whether a call has ended what it guards
can be seen by its answer (`Call.hasEnded`).
-/

namespace Bulwark.Engine

variable {α β : Type} {s : Session}

/-- Whether a call has ended what it guards.  A stream of which only so many items are read has
ended if there were fewer. -/
def Call.hasEnded : Call β → Reply β → Bool
  | .wrap _ _ _, .wrapped _ answer => answer.isSome
  | .stream _ _ none, _ => true
  | .stream _ _ (some wanted), .streamed hs => decide ((Course.itemsOf hs).length < wanted)
  | .degrade _ _ _, _ => true
  | .trip _ _, _ => true
  | _, _ => false

/-- The counts of finished operations have moved by the occurrences, and by nothing else. -/
abbrev Counts (s : Session) (os : List Occurrence) (t : Session) : Prop :=
  FollowsIn (fun c recovery => { c with recovery }) s.counts os t.counts

/-- An operation is counted once, however it has ended. -/
theorem counts_record (s : Session) (attempts : ℕ) (ending : Ending) (events : List Event) :
    Counts s [.ended] ⟨s.counts.record attempts ending, events⟩ := by
  intro c col
  cases col with
  | endings =>
    show (s.counts.record attempts ending).endings = s.counts.endings + 1
    unfold RecoveryCount.endings RecoveryCount.record
    cases ending with
    | success =>
      show s.counts.successes + 1 + _ + _ + _ = _
      ac_rfl
    | failure =>
      show _ + (s.counts.failures + 1) + _ + _ = _
      ac_rfl
    | degradation =>
      show _ + _ + (s.counts.degradations + 1) + _ = _
      ac_rfl
    | circuitTrip =>
      show _ + _ + _ + (s.counts.circuitTrips + 1) = _
      ac_rfl
  | _ => rfl

/-! ## Endings -/

theorem degrade_counts (now : Instant) (operation : String) (category : DegradationCategory)
    (attempts : ℕ) (f : Fault) :
    IfEnds (degrade now operation category attempts f) s fun _ t => Counts s [.ended] t := by
  unfold degrade
  refine IfEnds.modify_bind (IfEnds.modify_bind ?_)
  exact IfEnds.map (IfEnds.ofClock fun _ => counts_record s _ _ _)

theorem trip_counts (operation : String) (attempts : ℕ) (f : Fault) :
    IfEnds (trip operation attempts f) s fun _ t => Counts s [.ended] t := by
  unfold trip
  exact IfEnds.modify_bind (IfEnds.modify_bind (IfEnds.pure (counts_record s _ _ _)))

theorem conclude_counts (now : Instant) (spec : OperationSpec) (attempts : ℕ) (f : Fault) :
    IfEnds (conclude now spec attempts f : Action (Except Fault (Outcome β))) s
      fun _ t => Counts s [.ended] t := by
  unfold conclude
  split
  · exact IfEnds.modify_bind (IfEnds.modify_bind (IfEnds.pure (counts_record s _ _ _)))
  · split
    · exact IfEnds.map (degrade_counts now spec.name _ attempts f)
    · exact IfEnds.map (trip_counts spec.name attempts f)

theorem finish_counts (now : Instant) (spec : OperationSpec) (c : Course Empty β) :
    IfEnds (finish now spec c) s fun _ t => Counts s [.ended] t := by
  unfold finish
  split
  · exact IfEnds.modify_bind (IfEnds.pure (counts_record s _ _ _))
  · exact conclude_counts now spec c.starts _
  · exact IfEnds.throw

theorem finishStream_counts (spec : OperationSpec) (c : Course β Unit) :
    IfEnds (finishStream spec c) s fun _ t => Counts s [.ended] t := by
  unfold finishStream
  split
  · exact IfEnds.modify (counts_record s _ _ _)
  · exact IfEnds.modify_bind (IfEnds.modify (counts_record s _ _ _))
  · exact IfEnds.throw

/-! ## Guarding -/

section Guarding

variable [Quantity α] (e : Engine α) (now : Instant) (samples : ℕ → α) (spec : OperationSpec)

theorem wrap_counts (attempt : ℕ → Attempt β) :
    IfEnds (e.wrap now spec samples attempt) s fun _ t => Counts s [.ended] t := by
  unfold wrap
  exact IfEnds.modify_bind (IfEnds.map (finish_counts now spec _))

/-- An operation is not counted if it is given up. -/
theorem wrapWithin_counts (patience : Duration) (attempt : ℕ → Attempt β) :
    IfEnds (e.wrapWithin patience now spec samples attempt) s fun r t =>
      Counts s (if r.2.isSome then [.ended] else []) t := by
  unfold wrapWithin
  refine IfEnds.modify_bind ?_
  split
  · exact IfEnds.map (finish_counts now spec _)
  · exact IfEnds.pure (.nothing rfl)

theorem stream_counts (subscriptions : List (List (Attempt β))) :
    IfEnds (e.stream spec samples subscriptions) s fun _ t => Counts s [.ended] t := by
  unfold stream
  exact IfEnds.modify_bind (IfEnds.bind ((finishStream_counts spec _).mono
    fun _ _ h => IfEnds.pure h))

/-- A stream is not counted if it is dropped when there are enough items. -/
theorem streamTaking_counts (wanted : ℕ) (subscriptions : List (List (Attempt β))) :
    IfEnds (e.streamTaking wanted spec samples subscriptions) s fun hs t =>
      Counts s (if decide ((Course.itemsOf hs).length < wanted) then [.ended] else []) t := by
  obtain ⟨taken, hcut, -, htaken, -⟩ :=
    Course.cutAfter_eq wanted (e.streamCourse spec samples subscriptions).happenings
  have hfewer : decide ((Course.itemsOf taken).length < wanted) =
      !decide (wanted ≤ (Course.itemsOf
        (e.streamCourse spec samples subscriptions).happenings).length) := by
    rw [htaken, List.length_take, ← decide_not, decide_eq_decide]
    omega
  unfold streamTaking
  simp only [hcut, ← hfewer]
  refine IfEnds.modify_bind ?_
  cases hended : decide ((Course.itemsOf taken).length < wanted) with
  | true =>
    refine IfEnds.bind ((finishStream_counts spec _).mono fun _ t h => IfEnds.pure ?_)
    rw [hended]
    exact h
  | false =>
    refine IfEnds.pure ?_
    rw [hended]
    exact .nothing rfl

/-- A call counts what it guards if that has ended, and nothing else. -/
theorem perform_counts (call : Call β) :
    IfEnds (e.perform now samples call) s fun reply t =>
      Counts s (if call.hasEnded reply then [.ended] else []) t := by
  cases call with
  | wrap spec attempt patience =>
    cases patience with
    | none => exact IfEnds.map (wrap_counts e now samples spec attempt)
    | some patience => exact IfEnds.map (wrapWithin_counts e now samples spec patience attempt)
  | stream spec subscriptions wanted =>
    cases wanted with
    | none => exact IfEnds.map (stream_counts e samples spec subscriptions)
    | some wanted => exact IfEnds.map (streamTaking_counts e samples spec wanted subscriptions)
  | degrade operation category f => exact IfEnds.map (degrade_counts now operation category 0 f)
  | trip operation f => exact IfEnds.map (trip_counts operation 0 f)

end Guarding

end Bulwark.Engine
