import Bulwark.Proofs.Store.Expiry

/-!
# Keys that are gone

What has been deleted between two moments can be seen by comparing the two stores: a key is gone if
readers saw it before and do not see it any more (`Store.gone`).  Whoever names what he has deleted
(`Store.Removes`) names the keys that are gone (`Removes.gone_perm`).
-/

namespace Bulwark.Store

/-- The keys that readers saw in a store and do not see in another one. -/
def gone (now : Instant) (s t : Store) : List String :=
  (s.entries.entries.map Prod.fst).filter fun key =>
    (s.visible? now key).isSome && (t.visible? now key).isNone

/-- To readers, the second store is the first without some keys that they saw, each of which is
named once. -/
structure Removes (now : Instant) (s : Store) (keys : List String) (t : Store) : Prop where
  nodup : keys.Nodup
  visible : ∀ key ∈ keys, (s.visible? now key).isSome = true
  rest : ∀ key, t.visible? now key = if key ∈ keys then none else s.visible? now key

namespace Removes

variable {now : Instant} {s t u : Store} {keys keys' : List String} {key : String}

theorem of_sameView (h : SameView now s t) : Removes now s [] t where
  nodup := List.nodup_nil
  visible := nofun
  rest key := (h key).symm

/-- Deleting a key that readers see. -/
theorem delete (h : (s.visible? now key).isSome = true) :
    Removes now s [key] (s.delete now key).2 where
  nodup := List.nodup_singleton key
  visible k hk := by
    rw [List.mem_singleton.mp hk]
    exact h
  rest k := by
    rw [visible?_delete]
    simp only [List.mem_singleton]

/-- Deleting a key that they do not see. -/
theorem delete_of_not_visible (h : s.visible? now key = none) :
    Removes now s [] (s.delete now key).2 := by
  refine of_sameView fun k => ?_
  rw [visible?_delete]
  split
  · rename_i heq
    rw [heq, h]
  · rfl

/-- The keys named are those that are gone. -/
theorem gone_perm (h : Removes now s keys t) : (gone now s t).Perm keys := by
  refine (List.perm_ext_iff_of_nodup (s.entries.nodup_keys.filter _) h.nodup).mpr fun key => ?_
  rw [List.mem_filter, Bool.and_eq_true, h.rest]
  constructor
  · rintro ⟨-, hbefore, hafter⟩
    by_contra hkey
    rw [if_neg hkey, Option.isNone_iff_eq_none] at hafter
    rw [hafter] at hbefore
    cases hbefore
  · intro hkey
    obtain ⟨e, he⟩ := Option.isSome_iff_exists.mp (h.visible key hkey)
    have hentry := (s.entries.mem_entries_iff key e).mpr (visible?_eq_some_iff.mp he).1
    rw [if_pos hkey]
    exact ⟨List.mem_map_of_mem hentry, h.visible key hkey, rfl⟩

end Removes

end Bulwark.Store
