import Bulwark.Proofs.Store.Visible

/-!
# Buckets in a store

A store keeps a bucket as two fields of a hash, in writing.  Where the written form of a number
reads back as that number (`QuantityText.Lossless`), an admission step under a key is the step of
the bucket that is visible there, and what the step leaves is read as the bucket after it.
-/

namespace Bulwark

/-- Every number reads back from its written form. -/
def QuantityText.Lossless (α : Type) [QuantityText α] : Prop :=
  ∀ x : α, QuantityText.read? (QuantityText.render x) = some x

namespace Store

variable {α : Type} [QuantityText α]
variable {s : Store} {now : Instant} {key : String}

/-- The fields of the hash that is visible under a key, none if no hash is. -/
def fieldsAt (s : Store) (now : Instant) (key : String) : Table String :=
  match s.visible? now key with
  | some ⟨.hash fields, _⟩ => fields
  | _ => .empty

/-- Whether a text is visible under a key. -/
def holdsText (s : Store) (now : Instant) (key : String) : Prop :=
  ∃ text deadline, s.visible? now key = some ⟨.text text, deadline⟩

theorem fieldsAt_of_not_visible (h : s.visible? now key = none) : s.fieldsAt now key = .empty := by
  unfold fieldsAt
  rw [h]

theorem not_text_of_not_visible (h : s.visible? now key = none) : ¬ s.holdsText now key := by
  rintro ⟨text, deadline, hv⟩
  rw [h] at hv
  exact absurd hv (by simp)

theorem holdsText_congr {t : Store} (h : t.entries.get? key = s.entries.get? key) :
    t.holdsText now key ↔ s.holdsText now key := by
  unfold holdsText visible?
  rw [h]

theorem writable_of_not_text (h : ¬ s.holdsText now key) :
    ∃ deadline, s.writable now key = .ok (s.fieldsAt now key, deadline) := by
  unfold writable fieldsAt
  rw [← visible?]
  cases hv : s.visible? now key with
  | none => exact ⟨none, rfl⟩
  | some e =>
    obtain ⟨text | fields, deadline⟩ := e
    · exact absurd ⟨text, deadline, hv⟩ h
    · exact ⟨deadline, rfl⟩

/-- What an admission step does where no text is in the way. -/
theorem takeTokens_eq [Quantity α] (h : ¬ s.holdsText now key) (r : Bucket.Request α) :
    s.takeTokens now key r =
      let step := r.apply (bucketOf? (s.fieldsAt now key) r.now)
      (.ok step.2, s.put key (.hash (withBucket (s.fieldsAt now key) step.1))
        (now.later? (.ofSeconds r.ttlSeconds))) := by
  obtain ⟨deadline, hw⟩ := writable_of_not_text h
  unfold takeTokens
  rw [hw]

/-- There is no bucket in a hash without fields. -/
theorem bucketOf?_empty (now : α) : bucketOf? (.empty : Table String) now = none := rfl

/-- The bucket that was written last is the one that is read. -/
theorem bucketOf?_withBucket (lossless : QuantityText.Lossless α) (fields : Table String)
    (b : Bucket α) (now : α) : bucketOf? (withBucket fields b) now = some b := by
  have hne : Bucket.tokensField ≠ Bucket.lastRefillField := by decide
  unfold bucketOf? withBucket
  simp only [Table.get?_insert, if_neg hne, if_pos, Option.bind_some, lossless b.tokens,
    lossless b.lastRefill, Option.map_some, Option.getD_some]

end Store
end Bulwark
