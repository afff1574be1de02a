import Bulwark.Proofs.Deployment.Parts
import Bulwark.Proofs.Limiter.Mirror

/-!
# Admission and revocation do not interfere

Limiters and blacklists share a store, and it does not show: a run in which both are at work gives
each of them the answers and the events that it has in the run without the other (`play_erased`).
All that it takes is prefixes of which none starts with the other.  Then no key belongs to both, so
scans, sweeps and errors of one side never meet a key of the other.

A turn that halts ends the run for both.  If it belongs to the erased part, the run without it may go
on, and shows what the run with it has shown and more.
-/

namespace Bulwark

/-- A text starts with two others only if one of these starts with the other. -/
theorem Text.startsWith_or_startsWith {start start' s : String}
    (h : Text.startsWith start s = true) (h' : Text.startsWith start' s = true) :
    Text.startsWith start start' = true ∨ Text.startsWith start' start = true := by
  unfold Text.startsWith at *
  rw [List.isPrefixOf_iff_prefix] at h h'
  rw [List.isPrefixOf_iff_prefix, List.isPrefixOf_iff_prefix]
  exact List.prefix_or_prefix_of_prefix h h'

namespace Deployment

variable {α β : Type} {d d' e : Deployment α}

/-! ## Prefixes -/

/-- No prefix of a limiter starts with the prefix of a blacklist, and none of a blacklist with that
of a limiter. -/
def Apart (d : Deployment α) : Prop :=
  ∀ m ∈ d.members, ∀ m' ∈ d.members,
    Text.startsWith m.layer.limiter.keyPrefix m'.layer.blacklist.keyPrefix = false ∧
      Text.startsWith m'.layer.blacklist.keyPrefix m.layer.limiter.keyPrefix = false

/-- The keys of a deployment, by their prefixes. -/
def Apart.parting (h : d.Apart) : Parting where
  keys p key := ∃ m ∈ d.members, Text.startsWith (p.keyPrefix m.layer) key = true
  apart p key := by
    rintro ⟨m, hm, hstart⟩ ⟨m', hm', hstart'⟩
    have hone := Text.startsWith_or_startsWith hstart hstart'
    cases p with
    | admission =>
      obtain ⟨hlimiter, hblacklist⟩ := h m hm m' hm'
      rcases hone with hone | hone
      · exact Bool.false_ne_true (hlimiter.symm.trans hone)
      · exact Bool.false_ne_true (hblacklist.symm.trans hone)
    | revocation =>
      obtain ⟨hlimiter, hblacklist⟩ := h m' hm' m hm
      rcases hone with hone | hone
      · exact Bool.false_ne_true (hblacklist.symm.trans hone)
      · exact Bool.false_ne_true (hlimiter.symm.trans hone)

theorem Apart.holds (h : d.Apart) : h.parting.Holds d :=
  fun m hm _ _ hstart => ⟨m, hm, hstart⟩

/-! ## Runs without a part -/

/-- A turn that is left when the other part is erased: one of this part, or one of neither. -/
def Turn.isFor (p : Part) (t : Turn α β) : Bool := t.part?.all (· == p)

/-- A turn of a part, or a move of the clock that they share. -/
def Turn.IsShared (t : Turn α β) : Prop := t.part?.isSome = true ∨ ∃ m, t = .clock m

theorem Turn.part_of_not_isFor {p : Part} {t : Turn α β} (h : t.isFor p = false) :
    t.part? = some p.other := by
  unfold isFor at h
  cases hpart : t.part? with
  | none => simp [hpart] at h
  | some q =>
    rw [hpart, Option.all_some] at h
    cases p <;> cases q <;> first | rfl | cases h

/-- What the turns that are kept show in a run is what they show in the run without the others. -/
structure Erased (keep : Turn α β → Bool) (all alone : List (Record α β) × RunEnding α β) :
    Prop where
  /-- As far as the run with all turns goes, they answer and report the same. -/
  records : all.1.filter (keep ·.turn) <+: alone.1
  /-- If that run goes to its end, then so does the other. -/
  ended : ∀ e, all.2 = .ok e →
    alone.1 = all.1.filter (keep ·.turn) ∧ ∃ e', alone.2 = .ok e'
  /-- If a turn halts that is kept, then it does so in the other run. -/
  halted : ∀ t halt, all.2 = .error (t, halt) → keep t = true →
    alone.1 = all.1.filter (keep ·.turn) ∧ alone.2 = .error (t, halt)

namespace Erased

variable {keep : Turn α β → Bool} {all alone : List (Record α β) × RunEnding α β}

/-- A turn that is kept shows the same in both runs. -/
theorem cons (h : Erased keep all alone) (r : Record α β) (hr : keep r.turn = true) :
    Erased keep (r :: all.1, all.2) (r :: alone.1, alone.2) := by
  have hfilter : (r :: all.1).filter (keep ·.turn) = r :: all.1.filter (keep ·.turn) :=
    List.filter_cons_of_pos hr
  refine ⟨?_, fun e he => ?_, fun t halt ht hkeep => ?_⟩
  · rw [hfilter]
    exact List.cons_prefix_cons.mpr ⟨rfl, h.records⟩
  · obtain ⟨hrecords, hend⟩ := h.ended e he
    exact ⟨by rw [hfilter, hrecords], hend⟩
  · obtain ⟨hrecords, hend⟩ := h.halted t halt ht hkeep
    exact ⟨by rw [hfilter, hrecords], hend⟩

/-- A turn that is erased shows in the one run only. -/
theorem skip (h : Erased keep all alone) (r : Record α β) (hr : keep r.turn = false) :
    Erased keep (r :: all.1, all.2) alone := by
  have hfilter : (r :: all.1).filter (keep ·.turn) = all.1.filter (keep ·.turn) :=
    List.filter_cons_of_neg (by simp [hr])
  refine ⟨?_, fun e he => ?_, fun t halt ht hkeep => ?_⟩
  · rw [hfilter]
    exact h.records
  · rw [hfilter]
    exact h.ended e he
  · rw [hfilter]
    exact h.halted t halt ht hkeep

end Erased

variable [Quantity α] [QuantityText α] {k : Parting} {p : Part} {turns : List (Turn α β)}

/-- Runs of deployments that a part cannot tell apart, one of them without the other part. -/
theorem play_erased_of_same (hsame : (k.border p).same d d')
    (hturns : ∀ t ∈ turns, t.IsShared) :
    Erased (Turn.isFor p) (d.play turns) (d'.play (turns.filter (Turn.isFor p))) := by
  induction turns generalizing d d' with
  | nil => exact ⟨List.nil_prefix, fun _ _ => ⟨rfl, d', rfl⟩, nofun⟩
  | cons t rest ih =>
    obtain ⟨hholds, hsees⟩ := hsame
    have hrest : ∀ t' ∈ rest, t'.IsShared := fun t' ht' => hturns t' (List.mem_cons_of_mem t ht')
    cases hkept : t.isFor p with
    | true =>
      have htakes : SameEnd (k.border p).same (d.take t) (d'.take t) := by
        rcases hturns t List.mem_cons_self with hpart | ⟨m, rfl⟩
        · obtain ⟨q, hq⟩ := Option.isSome_iff_exists.mp hpart
          obtain rfl : q = p := by simpa [Turn.isFor, hq] using hkept
          exact (Parting.take_confined hq).congr d d' ⟨hholds, hsees⟩
        · exact Parting.clock_congr ⟨hholds, hsees⟩ m
      rw [List.filter_cons_of_pos hkept]
      generalize htake : d.take t = r at htakes
      generalize htake' : d'.take t = r' at htakes
      cases htakes with
      | halt halt =>
        rw [play_of_halt htake, play_of_halt htake']
        exact ⟨List.nil_prefix, nofun, fun _ _ h _ => ⟨rfl, h⟩⟩
      | answer shown hafter =>
        obtain ⟨reply, events⟩ := shown
        rw [play_of_ok htake, play_of_ok htake']
        exact (ih hafter hrest).cons ⟨t, reply, events⟩ hkept
    | false =>
      rw [List.filter_cons_of_neg (by simp [hkept])]
      cases htake : d.take t with
      | error halt =>
        rw [play_of_halt htake]
        refine ⟨List.nil_prefix, nofun, fun t' halt' h hkeep => ?_⟩
        obtain ⟨rfl, -⟩ := Prod.mk.inj (Except.error.inj h)
        rw [hkept] at hkeep
        cases hkeep
      | ok r =>
        obtain ⟨⟨reply, events⟩, e⟩ := r
        have hreach : k.SeesAll p d e := by
          have hother := (Parting.take_confined (k := k) (Turn.part_of_not_isFor hkept)).reaches
            d _ e htake hholds hsees.gate.isOpen
          rwa [Part.other_other] at hother
        rw [play_of_ok htake]
        exact (ih ⟨hreach.holds hholds, hreach.symm.trans hsees⟩ hrest).skip
          ⟨t, reply, events⟩ hkept

/-- **Admission and revocation do not interfere.**  Where the prefixes of limiters and of blacklists
are apart, each part answers and reports in a run with both what it does in the run without the
other. -/
theorem play_erased (hopen : d.gate.IsOpen) (hapart : d.Apart) (hturns : ∀ t ∈ turns, t.IsShared)
    (p : Part) :
    Erased (Turn.isFor p) (d.play turns) (d.play (turns.filter (Turn.isFor p))) :=
  play_erased_of_same (k := hapart.parting) ⟨hapart.holds, .refl hopen⟩ hturns

/-! ## Two layers on one store -/

/-- An address uses up its only token at one layer, and a token is revoked at the other; a minute
later both are over. -/
def minuteOfBoth : List (Turn ℚ Unit) :=
  let check (i : ℕ) : Turn ℚ Unit :=
    .call i (fun _ => 0) (.limiter (.checkWith ⟨.ip, "203.0.113.7"⟩ 1 1 60 1))
  let blacklist (i : ℕ) (c : Blacklist.Call) : Turn ℚ Unit := .call i (fun _ => 0) (.blacklist c)
  [check 0, blacklist 1 (.addOrLog "token" "stolen" 60), check 1, .drain 0 64,
    blacklist 0 (.isRevoked "token"), .drain 0 64, .clock (.advance (.ofSeconds 60)),
    blacklist 0 (.isRevoked "token"), check 1]

/-- Neither part shows in what the other one answers. -/
theorem play_erased_minuteOfBoth :
    let play := @play ℚ Unit _ Quantity.fractions
    tightPair.gate.IsOpen ∧ tightPair.Apart ∧ (∀ t ∈ minuteOfBoth, t.IsShared) ∧
      (play tightPair minuteOfBoth).1.filterMap Record.flag? =
        [true, true, false, true, false, true] ∧
      ∀ p, Erased (Turn.isFor p) (play tightPair minuteOfBoth)
        (play tightPair (minuteOfBoth.filter (Turn.isFor p))) := by
  intro play
  have hopen : tightPair.gate.IsOpen := ⟨rfl, rfl⟩
  have hapart : tightPair.Apart := by
    have hprefixes : Text.startsWith "rate_limit:" "auth:blacklist:" = false ∧
        Text.startsWith "auth:blacklist:" "rate_limit:" = false := by decide
    intro m hm m' hm'
    obtain ⟨_, _, rfl⟩ := List.mem_map.mp hm
    obtain ⟨_, _, rfl⟩ := List.mem_map.mp hm'
    exact hprefixes
  have hturns : ∀ t ∈ minuteOfBoth, t.IsShared := by
    intro t ht
    simp only [minuteOfBoth, List.mem_cons, List.not_mem_nil, or_false] at ht
    rcases ht with rfl | rfl | rfl | rfl | rfl | rfl | rfl | rfl | rfl <;>
      first
      | exact .inl rfl
      | exact .inr ⟨_, rfl⟩
  refine ⟨hopen, hapart, hturns, by decide +kernel, fun p => ?_⟩
  exact @play_erased ℚ Unit tightPair _ Quantity.fractions minuteOfBoth hopen hapart hturns p

end Deployment
end Bulwark
