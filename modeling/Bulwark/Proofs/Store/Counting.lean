import Bulwark.Limiter.Basic
import Bulwark.Proofs.Store.Gate
import Bulwark.Proofs.Store.Local
import Bulwark.Proofs.Text.Digits

/-!
# Counts in a store

The shared statistics of a kind are a hash of three counts in writing.  `Counts` says that a key
holds two numbers in this form, with their sum beside them; a key that has never been written holds
two zeros.  Writing a tally adds to the numbers as long as they fit (`Counts.increment`), and reading
the fields gives them back (`Counts.read`).
-/

namespace Bulwark.Store

/-- A hash that counts decisions, with their sum. -/
structure IsCount (fields : Table String) (allowed blocked : ℕ) : Prop where
  total : fields.get? "total" = some (toString ((allowed + blocked : ℕ) : ℤ))
  allowed : fields.get? "allowed" = some (toString (allowed : ℤ))
  blocked : fields.get? "blocked" = some (toString (blocked : ℤ))

/-- A key that holds counts of decisions and keeps them for good, or nothing if there are none. -/
def Counts (s : Store) (key : String) (allowed blocked : ℕ) : Prop :=
  s.entries.get? key = none ∧ allowed = 0 ∧ blocked = 0 ∨
    ∃ fields, s.entries.get? key = some ⟨.hash fields, none⟩ ∧ IsCount fields allowed blocked

/-- The count that is read in a field. -/
theorem counter_eq {fields : Table String} {field : String} {n : ℕ}
    (h : fields.get? field = some (toString (n : ℤ))) (hfits : (n : ℤ) ≤ Text.maxSigned) :
    counter fields field = .ok n := by
  unfold counter
  rw [h]
  simp only [Text.signed?_toString n hfits]

/-- Counts that a write starts from: those of a hash, or zeros. -/
structure StartsFrom (fields : Table String) (allowed blocked : ℕ) : Prop where
  total : counter fields "total" = .ok ((allowed + blocked : ℕ) : ℤ)
  allowed : counter fields "allowed" = .ok (allowed : ℤ)
  blocked : counter fields "blocked" = .ok (blocked : ℤ)

theorem StartsFrom.empty : StartsFrom .empty 0 0 := ⟨rfl, rfl, rfl⟩

theorem IsCount.startsFrom {fields : Table String} {allowed blocked : ℕ}
    (h : IsCount fields allowed blocked) (hfits : ((allowed + blocked : ℕ) : ℤ) ≤ Text.maxSigned) :
    StartsFrom fields allowed blocked where
  total := counter_eq h.total hfits
  allowed := counter_eq h.allowed (by omega)
  blocked := counter_eq h.blocked (by omega)

theorem addSaturating_eq (a b : ℕ) (h : ((a + b : ℕ) : ℤ) ≤ Text.maxSigned) :
    Text.addSaturating a b = ((a + b : ℕ) : ℤ) := by
  have hmin : Text.minSigned ≤ ((a + b : ℕ) : ℤ) :=
    (by decide : Text.minSigned ≤ 0).trans (Int.natCast_nonneg _)
  unfold Text.addSaturating
  rw [← Int.natCast_add, min_eq_right h, max_eq_right hmin]

/-- Counts after a tally has been added. -/
theorem StartsFrom.add {fields : Table String} {allowed blocked : ℕ}
    (h : StartsFrom fields allowed blocked) (t : Tally)
    (hfits : ((allowed + blocked + (t.allowed + t.blocked) : ℕ) : ℤ) ≤ Text.maxSigned) :
    ∃ sums : List (String × ℤ),
      (t.increments.mapM fun (field, delta) => do
        .ok (field, Text.addSaturating (← counter fields field) delta)) =
          (.ok sums : Except StoreError (List (String × ℤ))) ∧
      IsCount (sums.foldl (fun t (field, sum) => t.insert field (toString sum)) fields)
        (allowed + t.allowed) (blocked + t.blocked) := by
  refine ⟨[("total", ((allowed + blocked + (t.allowed + t.blocked) : ℕ) : ℤ)),
    ("allowed", ((allowed + t.allowed : ℕ) : ℤ)), ("blocked", ((blocked + t.blocked : ℕ) : ℤ))],
    ?_, ?_, ?_, ?_⟩
  · have htotal := addSaturating_eq _ _ hfits
    have hallowed := addSaturating_eq allowed t.allowed (by omega)
    have hblocked := addSaturating_eq blocked t.blocked (by omega)
    simp only [Tally.increments, List.mapM_cons, List.mapM_nil, h.total, h.allowed, h.blocked]
    rw [← htotal, ← hallowed, ← hblocked]
    rfl
  · rw [show allowed + t.allowed + (blocked + t.blocked) =
      allowed + blocked + (t.allowed + t.blocked) by omega]
    simp [Table.get?_insert]
  · simp [Table.get?_insert]
  · simp [Table.get?_insert]

section Counts

variable {s t : Store} {key : String} {allowed blocked : ℕ} (now : Instant)

theorem Counts.congr (h : s.Counts key allowed blocked)
    (heq : t.entries.get? key = s.entries.get? key) : t.Counts key allowed blocked := by
  unfold Counts
  rw [heq]
  exact h

/-- Counts have no deadline. -/
theorem Counts.deadline (h : s.Counts key allowed blocked) :
    ∀ e ∈ s.entries.get? key, e.deadline = none := by
  rcases h with ⟨hnone, _⟩ | ⟨fields, hsome, _⟩
  · rw [hnone]
    exact fun e he => by cases he
  · rw [hsome]
    rintro e he
    cases he
    rfl

/-- Counts take up a tally, as long as the sum fits. -/
theorem Counts.increment (h : s.Counts key allowed blocked) (t : Tally)
    (hfits : ((allowed + blocked + (t.allowed + t.blocked) : ℕ) : ℤ) ≤ Text.maxSigned) :
    (s.hashIncrementAll now key t.increments).1 = .ok () ∧
      (s.hashIncrementAll now key t.increments).2.Counts key (allowed + t.allowed)
        (blocked + t.blocked) := by
  obtain ⟨fields, hwritable, hstarts⟩ : ∃ fields, s.writable now key = .ok (fields, none) ∧
      StartsFrom fields allowed blocked := by
    unfold Store.writable
    rcases h with ⟨hnone, rfl, rfl⟩ | ⟨fields, hsome, hcount⟩
    · exact ⟨.empty, by rw [hnone]; rfl, .empty⟩
    · exact ⟨fields, by rw [hsome]; rfl, hcount.startsFrom (by omega)⟩
  obtain ⟨sums, hsums, hcount⟩ := hstarts.add t hfits
  have hupdate : s.hashIncrementAll now key t.increments = (.ok (), s.put key (.hash
      (sums.foldl (fun t (field, sum) => t.insert field (toString sum)) fields)) none) := by
    unfold hashIncrementAll hashUpdate
    rw [hwritable]
    dsimp only
    rw [hsums]
    rfl
  rw [hupdate]
  exact ⟨rfl, .inr ⟨_, by rw [get?_put, if_pos rfl], hcount⟩⟩

/-- What is read in a field of counts. -/
theorem Counts.read (h : s.Counts key allowed blocked) {field : String} {n : ℕ}
    (hfield : ∀ fields, IsCount fields allowed blocked →
      fields.get? field = some (toString (n : ℤ)))
    (hzero : allowed = 0 → blocked = 0 → n = 0) (hfits : n ≤ Text.maxUnsigned) :
    ∃ text, (s.hashGet now key field).1 = .ok text ∧ (text.bind Text.unsigned?).getD 0 = n := by
  unfold hashGet live?
  rcases h with ⟨hnone, ha, hb⟩ | ⟨fields, hsome, hcount⟩
  · rw [hnone]
    exact ⟨none, rfl, (hzero ha hb).symm⟩
  · rw [hsome]
    refine ⟨some (toString (n : ℤ)), congrArg Except.ok (hfield fields hcount), ?_⟩
    rw [Option.bind_some, Text.unsigned?_toString n hfits]
    rfl

end Counts

end Bulwark.Store
