import Bulwark.Proofs.Store.Gate
import Bulwark.Proofs.Store.Local
import Bulwark.Proofs.Store.Scan

/-!
# Open gates that agree

An open gate lets every call pass, so its calls are those of its store.  Two open gates whose stores
agree off some reserved keys are alike to whoever works on other keys, and a call about a reserved
key leaves a gate that is alike to the one before.
-/

namespace Bulwark

/-- Stores that agree off the reserved keys show the same keys there. -/
theorem Store.matches_iff_of_agreeOff {reserved : String → Prop} {s t : Store} {now : Instant}
    {keyPrefix key : String} (h : s.AgreeOff reserved t)
    (hkey : Text.startsWith keyPrefix key = true → ¬ reserved key) :
    s.Matches now keyPrefix key ↔ t.Matches now keyPrefix key := by
  unfold Matches visible?
  constructor
  · rintro ⟨hstart, hvisible⟩
    exact ⟨hstart, h key (hkey hstart) ▸ hvisible⟩
  · rintro ⟨hstart, hvisible⟩
    exact ⟨hstart, (h key (hkey hstart)).symm ▸ hvisible⟩

/-- An open gate stays open. -/
theorem Gate.IsOpen.call {β : Type} {g : Gate} (h : g.IsOpen)
    (operation : Store → Store.Result β) : (g.call operation).2.IsOpen := by
  rw [Gate.call_of_pass h.refusal?]
  exact ⟨h.next.plan_nil, h.next.connected⟩

/-- Open gates whose stores agree off the reserved keys. -/
structure Gate.Alike (reserved : String → Prop) (g g' : Gate) : Prop where
  isOpen : g.IsOpen
  isOpen' : g'.IsOpen
  position_eq : g.position = g'.position
  agree : g.store.AgreeOff reserved g'.store

namespace Gate

variable {reserved : String → Prop} {g g' g'' : Gate} {β : Type} {key : String}
  {operation : Store → Store.Result β}

theorem Alike.refl (h : g.IsOpen) : Alike reserved g g := ⟨h, h, rfl, .refl g.store⟩

theorem Alike.symm (h : Alike reserved g g') : Alike reserved g' g :=
  ⟨h.isOpen', h.isOpen, h.position_eq.symm, fun k hk => (h.agree k hk).symm⟩

theorem Alike.trans (h : Alike reserved g g') (h' : Alike reserved g' g'') :
    Alike reserved g g'' :=
  ⟨h.isOpen, h'.isOpen', h.position_eq.trans h'.position_eq,
    fun k hk => (h.agree k hk).trans (h'.agree k hk)⟩

/-- A call about a key that is not reserved answers alike and leaves the gates alike. -/
theorem Alike.call (h : Alike reserved g g') (hacts : Store.ActsOn key operation)
    (hkey : ¬ reserved key) : (g.call operation).1 = (g'.call operation).1 ∧
      Alike reserved (g.call operation).2 (g'.call operation).2 := by
  obtain ⟨hanswer, hagree⟩ := hacts.agreeOff hkey h.agree
  have hopen := h.isOpen.call operation
  have hopen' := h.isOpen'.call operation
  rw [call_of_pass h.isOpen.refusal?] at hopen ⊢
  rw [call_of_pass h.isOpen'.refusal?] at hopen' ⊢
  exact ⟨hanswer, hopen, hopen', by
    rw [next_position, next_position, h.position_eq], hagree⟩

theorem Alike.next (h : Alike reserved g g') : Alike reserved g.next g'.next where
  isOpen := h.isOpen.next
  isOpen' := h.isOpen'.next
  position_eq := by rw [next_position, next_position, h.position_eq]
  agree := by
    rw [next_store, next_store]
    exact h.agree

theorem IsOpen.alike_next (h : g.IsOpen) : Alike reserved g g.next :=
  ⟨h, h.next, (next_position g).symm, fun k _ => by rw [next_store]⟩

/-- A page that an open gate lets through. -/
theorem IsOpen.scan_eq (h : g.IsOpen) (now : Instant) (keyPrefix : String) (cursor count : ℕ) :
    g.scan now keyPrefix cursor count =
      ((g.store.scan g.position now keyPrefix cursor count).1, g.next) := by
  unfold Gate.scan
  rw [call_of_pass h.refusal?]
  show (_, { g.next with store := g.store }) = _
  rw [← g.next_store]

/-- A scan of keys that are not reserved gives the same page. -/
theorem Alike.scan (h : Alike reserved g g') {keyPrefix : String}
    (hkeys : ∀ key, Text.startsWith keyPrefix key = true → ¬ reserved key) (now : Instant)
    (cursor count : ℕ) :
    (g.scan now keyPrefix cursor count).1 = (g'.scan now keyPrefix cursor count).1 := by
  rw [h.isOpen.scan_eq, h.isOpen'.scan_eq, h.position_eq]
  exact Store.scan_congr cursor
    (fun key _ => Store.matches_iff_of_agreeOff h.agree (hkeys key)) count

/-- A call about a reserved key leaves the gate as it was, but for that. -/
theorem IsOpen.alike_call (h : g.IsOpen) (hacts : Store.ActsOn key operation)
    (hkey : reserved key) : Alike reserved g (g.call operation).2 := by
  have hopen := h.call operation
  rw [call_of_pass h.refusal?] at hopen ⊢
  exact ⟨h, hopen, (next_position g).symm,
    fun k hk => (hacts.agreeOff_self hkey k hk).symm⟩

end Gate

end Bulwark
