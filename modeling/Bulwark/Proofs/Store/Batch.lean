import Mathlib.Data.List.Induction
import Bulwark.Proofs.Store.Local
import Bulwark.Proofs.Store.Scan
import Bulwark.Proofs.Text.Digits

/-!
# Increments at once and one by one

A store adds to several counts at once from the counts before the call, and a store that only knows
single increments adds them one after the other.  Both fail with the error of the first field that
holds no count (`hashIncrementAll_eq`, `hashIncrementEach_eq`).  Where they succeed, the one leaves
the last increment of a field on top of its old count (`get?_batched`), the other all of them
(`get?_steps`).

So nobody can tell the two apart exactly where that is the same and there is a hash to begin with or
something to add: an empty list makes a hash at once, and none one by one (`batchAgrees_iff`).
-/

namespace Bulwark.Store

/-! ## Readers -/

/-- Stores that give the same answers to every reader from a moment on. -/
structure ReadAlike (now : Instant) (s t : Store) : Prop where
  get : ∀ later, now ≤ later → ∀ key, (s.get later key).1 = (t.get later key).1
  hashGet : ∀ later, now ≤ later → ∀ key field,
    (s.hashGet later key field).1 = (t.hashGet later key field).1
  contains : ∀ later, now ≤ later → ∀ key, (s.contains later key).1 = (t.contains later key).1
  ttl : ∀ later, now ≤ later → ∀ key, (s.ttl later key).1 = (t.ttl later key).1
  scan : ∀ later, now ≤ later → ∀ position keyPrefix cursor count,
    (s.scan position later keyPrefix cursor count).1 =
      (t.scan position later keyPrefix cursor count).1
  size : ∀ later, now ≤ later → s.size later = t.size later

/-- What is under a key in two stores: the same, or hashes that differ in the order of their fields
at most. -/
inductive SameContent : Option StoredEntry → Option StoredEntry → Prop
  | refl (entry : Option StoredEntry) : SameContent entry entry
  | hash {fields fields' : Table String} (deadline : Option Instant)
      (hfields : ∀ field, fields.get? field = fields'.get? field) :
      SameContent (some ⟨.hash fields, deadline⟩) (some ⟨.hash fields', deadline⟩)

section SameContent

variable {s t : Store} {e e' : Option StoredEntry} {now : Instant} {key : String}

/-- Time takes the same away from both. -/
theorem SameContent.filter (h : SameContent e e') (now : Instant) :
    SameContent (e.filter (·.isLive now)) (e'.filter (·.isLive now)) := by
  cases h with
  | refl => exact .refl _
  | @hash fields fields' deadline hfields =>
    rw [Option.filter_some, Option.filter_some]
    by_cases hlive : (⟨.hash fields, deadline⟩ : StoredEntry).isLive now = true
    · have hlive' : (⟨.hash fields', deadline⟩ : StoredEntry).isLive now = true := hlive
      rw [if_pos hlive, if_pos hlive']
      exact .hash deadline hfields
    · have hlive' : ¬ (⟨.hash fields', deadline⟩ : StoredEntry).isLive now = true := hlive
      rw [if_neg hlive, if_neg hlive']
      exact .refl _

theorem SameContent.isSome_eq (h : SameContent e e') : e.isSome = e'.isSome := by
  cases h <;> rfl

theorem SameContent.textAnswer_eq (h : SameContent e e') (key : String) :
    textAnswer key e = textAnswer key e' := by
  cases h <;> rfl

theorem SameContent.fieldAnswer_eq (h : SameContent e e') (key field : String) :
    fieldAnswer key field e = fieldAnswer key field e' := by
  cases h with
  | refl => rfl
  | hash _ hfields => exact congrArg Except.ok (hfields field)

theorem SameContent.ttlAnswer_eq (h : SameContent e e') (now : Instant) :
    ttlAnswer now e = ttlAnswer now e' := by
  cases h with
  | refl => rfl
  | hash deadline _ => cases deadline <;> rfl

/-- No reader sees the order of fields. -/
theorem readAlike_of_sameContent
    (h : ∀ key, SameContent (s.entries.get? key) (t.entries.get? key)) : ReadAlike now s t := by
  have hvisible : ∀ later key, SameContent (s.visible? later key) (t.visible? later key) :=
    fun later key => (h key).filter later
  have hmatches : ∀ later keyPrefix key,
      s.Matches later keyPrefix key ↔ t.Matches later keyPrefix key := by
    intro later keyPrefix key
    unfold Matches
    rw [(hvisible later key).isSome_eq]
  constructor
  · intro later _ key
    rw [get_answer, get_answer, (hvisible later key).textAnswer_eq]
  · intro later _ key field
    rw [hashGet_answer, hashGet_answer, (hvisible later key).fieldAnswer_eq]
  · intro later _ key
    rw [contains_answer, contains_answer, (hvisible later key).isSome_eq]
  · intro later _ key
    rw [ttl_answer, ttl_answer, (hvisible later key).ttlAnswer_eq]
  · intro later _ _ keyPrefix cursor count
    exact scan_congr cursor (fun key _ => hmatches later keyPrefix key) count
  · exact fun later _ => size_congr (hmatches later "")

end SameContent

/-! ## Counts in the fields of a hash -/

/-- The count in a field, zero if it holds none. -/
def countOf (fields : Table String) (field : String) : ℤ :=
  match counter fields field with
  | .ok count => count
  | .error _ => 0

/-- The error of a field that holds no count. -/
def fieldFault? (fields : Table String) (field : String) : Option StoreError :=
  match counter fields field with
  | .ok _ => none
  | .error e => some e

/-- The error of the first increment of a field that holds no count. -/
def fault? (fields : Table String) (increments : List (String × ℤ)) : Option StoreError :=
  increments.findSome? fun i => fieldFault? fields i.1

/-- The sum that an increment makes of a count. -/
def sumText (count delta : ℤ) : String := toString (Text.addSaturating count delta)

/-- A count after increments one after the other. -/
def addUp (count : ℤ) (deltas : List ℤ) : ℤ := deltas.foldl Text.addSaturating count

/-- The increments of a field, in their order. -/
def deltasOf (field : String) (increments : List (String × ℤ)) : List ℤ :=
  (increments.filter (·.1 = field)).map (·.2)

/-- The fields after increments at once, each on top of the count before them. -/
def batched (fields : Table String) (increments : List (String × ℤ)) : Table String :=
  increments.foldl (fun t i => t.insert i.1 (sumText (countOf fields i.1) i.2)) fields

/-- The fields after one increment. -/
def stepped (fields : Table String) (i : String × ℤ) : Table String :=
  fields.insert i.1 (sumText (countOf fields i.1) i.2)

section Fields

variable {fields : Table String} {field : String} {increments : List (String × ℤ)}

theorem counter_of_fault (h : fieldFault? fields field = none) :
    counter fields field = .ok (countOf fields field) := by
  unfold fieldFault? at h
  unfold countOf
  cases hcounter : counter fields field with
  | ok count => rfl
  | error e =>
    rw [hcounter] at h
    cases h

theorem counter_of_fault_eq_some {e : StoreError} (h : fieldFault? fields field = some e) :
    counter fields field = .error e := by
  unfold fieldFault? at h
  cases hcounter : counter fields field with
  | ok count =>
    rw [hcounter] at h
    cases h
  | error e' =>
    rw [hcounter] at h
    rw [Option.some.inj h]

/-- A sum that has been written is read as a count. -/
theorem counter_insert (fields : Table String) (f : String) (count delta : ℤ) (field : String) :
    counter (fields.insert f (sumText count delta)) field =
      if field = f then .ok (Text.addSaturating count delta) else counter fields field := by
  unfold counter
  rw [Table.get?_insert]
  by_cases hf : field = f
  · rw [if_pos hf, if_pos hf]
    simp only [sumText, Text.signed?_toString_of_fits (Text.fitsSigned_addSaturating count delta)]
  · rw [if_neg hf, if_neg hf]

theorem countOf_stepped (fields : Table String) (i : String × ℤ) (field : String) :
    countOf (stepped fields i) field =
      if field = i.1 then Text.addSaturating (countOf fields field) i.2 else countOf fields field := by
  unfold countOf stepped
  rw [counter_insert]
  by_cases hf : field = i.1
  · rw [if_pos hf, if_pos hf, hf]
    rfl
  · rw [if_neg hf, if_neg hf]

/-- An increment that succeeds leaves the other faults as they are. -/
theorem fieldFault?_stepped {i : String × ℤ} (h : fieldFault? fields i.1 = none) (field : String) :
    fieldFault? (stepped fields i) field = fieldFault? fields field := by
  unfold fieldFault? stepped
  rw [counter_insert]
  by_cases hf : field = i.1
  · rw [if_pos hf, hf, counter_of_fault h]
  · rw [if_neg hf]

theorem deltasOf_append (field : String) (increments increments' : List (String × ℤ)) :
    deltasOf field (increments ++ increments') =
      deltasOf field increments ++ deltasOf field increments' := by
  unfold deltasOf
  rw [List.filter_append, List.map_append]

theorem deltasOf_singleton (field : String) (i : String × ℤ) :
    deltasOf field [i] = if i.1 = field then [i.2] else [] := by
  unfold deltasOf
  by_cases hf : i.1 = field <;> simp [hf]

/-- At once, the last increment of a field stands. -/
theorem get?_batched (fields : Table String) (increments : List (String × ℤ)) (field : String) :
    (batched fields increments).get? field =
      match (deltasOf field increments).getLast? with
      | none => fields.get? field
      | some delta => some (sumText (countOf fields field) delta) := by
  unfold batched
  induction increments using List.reverseRecOn with
  | nil => rfl
  | append_singleton increments i ih =>
    rw [List.foldl_append, List.foldl_cons, List.foldl_nil, Table.get?_insert, deltasOf_append,
      deltasOf_singleton]
    by_cases hf : i.1 = field
    · rw [if_pos hf.symm, if_pos hf, List.getLast?_concat, hf]
    · rw [if_neg (Ne.symm hf), if_neg hf, List.append_nil]
      exact ih

theorem countOf_steps (fields : Table String) (increments : List (String × ℤ)) (field : String) :
    countOf (increments.foldl stepped fields) field =
      addUp (countOf fields field) (deltasOf field increments) := by
  induction increments using List.reverseRecOn with
  | nil => rfl
  | append_singleton increments i ih =>
    rw [List.foldl_append, List.foldl_cons, List.foldl_nil, countOf_stepped, ih, deltasOf_append,
      deltasOf_singleton]
    by_cases hf : i.1 = field
    · rw [if_pos hf.symm, if_pos hf, addUp, addUp, List.foldl_append]
      rfl
    · rw [if_neg (Ne.symm hf), if_neg hf, List.append_nil]

/-- One by one, every increment of a field counts. -/
theorem get?_steps (fields : Table String) (increments : List (String × ℤ)) (field : String) :
    (increments.foldl stepped fields).get? field =
      match (deltasOf field increments).getLast? with
      | none => fields.get? field
      | some _ => some (toString (addUp (countOf fields field) (deltasOf field increments))) := by
  induction increments using List.reverseRecOn with
  | nil => rfl
  | append_singleton increments i ih =>
    rw [List.foldl_append, List.foldl_cons, List.foldl_nil, stepped, Table.get?_insert,
      deltasOf_append, deltasOf_singleton]
    by_cases hf : i.1 = field
    · rw [if_pos hf.symm, if_pos hf, List.getLast?_concat, countOf_steps, hf, addUp, addUp,
        List.foldl_append]
      rfl
    · rw [if_neg (Ne.symm hf), if_neg hf, List.append_nil]
      exact ih

/-- A count that something has been added to is in range. -/
theorem fitsSigned_addUp (count : ℤ) {deltas : List ℤ} (h : deltas ≠ []) :
    Text.fitsSigned (addUp count deltas) = true := by
  obtain ⟨before, delta, rfl⟩ := (List.eq_nil_or_concat' deltas).resolve_left h
  rw [addUp, List.foldl_append]
  exact Text.fitsSigned_addSaturating _ _

end Fields

/-! ## Increments on a store -/

section Increments

variable {s : Store} {now : Instant} {key : String} {fields : Table String}
  {deadline : Option Instant}

/-- A write starts from what is visible under its key. -/
theorem writable_eq_ok_iff : s.writable now key = .ok (fields, deadline) ↔
    s.visible? now key = some ⟨.hash fields, deadline⟩ ∨
      s.visible? now key = none ∧ fields = .empty ∧ deadline = none := by
  unfold writable
  rw [← visible?]
  rcases s.visible? now key with _ | ⟨_ | fields', deadline'⟩
  · simp [eq_comm]
  · simp
  · simp

/-- A written hash is live. -/
theorem isLive_of_writable (h : s.writable now key = .ok (fields, deadline))
    (value : StoredValue) : (⟨value, deadline⟩ : StoredEntry).isLive now = true := by
  rcases writable_eq_ok_iff.mp h with hvisible | ⟨_, _, rfl⟩
  · exact (visible?_eq_some_iff.mp hvisible).2
  · rfl

theorem visible?_put_of_writable (h : s.writable now key = .ok (fields, deadline))
    (value : StoredValue) : (s.put key value deadline).visible? now key = some ⟨value, deadline⟩ := by
  rw [visible?_put, if_pos rfl, Option.filter_some, if_pos (isLive_of_writable h value)]

/-- The next write to a hash starts from what the last one has left. -/
theorem writable_put (h : s.writable now key = .ok (fields, deadline)) (fields' : Table String) :
    (s.put key (.hash fields') deadline).writable now key = .ok (fields', deadline) :=
  writable_eq_ok_iff.mpr (.inl (visible?_put_of_writable h _))

theorem mapM_counters (fields : Table String) (increments : List (String × ℤ)) :
    (increments.mapM fun (field, delta) => do
      .ok (field, Text.addSaturating (← counter fields field) delta) :
        Except StoreError (List (String × ℤ))) =
      match fault? fields increments with
      | some e => .error e
      | none => .ok (increments.map fun i =>
          (i.1, Text.addSaturating (countOf fields i.1) i.2)) := by
  induction increments with
  | nil => rfl
  | cons i rest ih =>
    obtain ⟨field, delta⟩ := i
    rw [List.mapM_cons, ih]
    unfold fault?
    rw [List.findSome?_cons]
    dsimp only
    cases hfault : fieldFault? fields field with
    | some e =>
      rw [counter_of_fault_eq_some hfault]
      rfl
    | none =>
      rw [counter_of_fault hfault]
      cases rest.findSome? fun i => fieldFault? fields i.1 <;> rfl

/-- Increments at once. -/
theorem hashIncrementAll_eq (h : s.writable now key = .ok (fields, deadline))
    (increments : List (String × ℤ)) :
    s.hashIncrementAll now key increments =
      match fault? fields increments with
      | some e => (.error e, s)
      | none => (.ok (), s.put key (.hash (batched fields increments)) deadline) := by
  unfold hashIncrementAll hashUpdate
  rw [h]
  dsimp only
  rw [mapM_counters]
  cases fault? fields increments with
  | some e => rfl
  | none =>
    have hsums : (increments.map fun i => (i.1, Text.addSaturating (countOf fields i.1) i.2)).foldl
        (fun t (field, sum) => t.insert field (toString sum)) fields =
          batched fields increments := List.foldl_map
    rw [← hsums]
    rfl

/-- One increment. -/
theorem hashIncrement_eq (h : s.writable now key = .ok (fields, deadline)) (i : String × ℤ) :
    s.hashIncrement now key i.1 i.2 =
      match fieldFault? fields i.1 with
      | some e => (.error e, s)
      | none => (.ok (Text.addSaturating (countOf fields i.1) i.2),
          s.put key (.hash (stepped fields i)) deadline) := by
  unfold hashIncrement hashUpdate
  rw [h]
  dsimp only
  cases hfault : fieldFault? fields i.1 with
  | some e =>
    rw [counter_of_fault_eq_some hfault]
    rfl
  | none =>
    rw [counter_of_fault hfault]
    rfl

/-- Increments one by one: up to the first fault, or all of them. -/
theorem hashIncrementEach_eq (h : s.writable now key = .ok (fields, deadline)) :
    ∀ increments, increments ≠ [] →
      match fault? fields increments with
      | some e => (s.hashIncrementEach now key increments).1 = .error e
      | none => (s.hashIncrementEach now key increments).1 = .ok () ∧
          (s.hashIncrementEach now key increments).2.entries.get? key =
            some ⟨.hash (increments.foldl stepped fields), deadline⟩ := by
  intro increments
  induction increments generalizing s fields with
  | nil => exact fun hne => absurd rfl hne
  | cons i rest ih =>
    intro _
    have hfirst := hashIncrement_eq h i
    unfold fault? hashIncrementEach
    rw [List.findSome?_cons]
    cases hfault : fieldFault? fields i.1 with
    | some e =>
      rw [hfault] at hfirst
      rw [hfirst]
    | none =>
      rw [hfault] at hfirst
      rw [hfirst]
      dsimp only
      have hsame : rest.findSome? (fun i => fieldFault? fields i.1) =
          fault? (stepped fields i) rest := by
        simp only [fault?, fieldFault?_stepped hfault]
      rw [hsame]
      by_cases hrest : rest = []
      · subst hrest
        exact ⟨rfl, by rw [hashIncrementEach, get?_put, if_pos rfl]; rfl⟩
      · exact ih (writable_put h _) hrest

/-- A text takes no increments, neither at once nor one by one. -/
theorem increments_of_writable_error {e : StoreError} (h : s.writable now key = .error e)
    (increments : List (String × ℤ)) :
    (s.hashIncrementAll now key increments).1 = .error e ∧
      (increments ≠ [] → (s.hashIncrementEach now key increments).1 = .error e) := by
  constructor
  · unfold hashIncrementAll hashUpdate
    rw [h]
  · intro hne
    obtain ⟨i, rest, rfl⟩ := List.exists_cons_of_ne_nil hne
    unfold hashIncrementEach hashIncrement hashUpdate
    rw [h]

end Increments

/-! ## Agreement -/

/-- Increments at once do what they do one by one: they succeed where these do, and then no reader
can tell the stores apart, and they fail with the same error. -/
structure BatchAgrees (s : Store) (now : Instant) (key : String) (increments : List (String × ℤ)) :
    Prop where
  succeeds : (s.hashIncrementEach now key increments).1 = .ok () →
    (s.hashIncrementAll now key increments).1 = .ok () ∧
      ReadAlike now (s.hashIncrementEach now key increments).2
        (s.hashIncrementAll now key increments).2
  fails : ∀ e, (s.hashIncrementEach now key increments).1 = .error e →
    (s.hashIncrementAll now key increments).1 = .error e

/-- The count that a write starts from, zero if there is none. -/
def countAt (s : Store) (now : Instant) (key field : String) : ℤ :=
  match s.writable now key with
  | .ok (fields, _) => countOf fields field
  | .error _ => 0

/-- The last increment of every field makes of its count what all of them make of it. -/
def LastStands (s : Store) (now : Instant) (key : String) (increments : List (String × ℤ)) : Prop :=
  ∀ field, ∀ delta ∈ (deltasOf field increments).getLast?,
    addUp (s.countAt now key field) (deltasOf field increments) =
      Text.addSaturating (s.countAt now key field) delta

section Agreement

variable {s : Store} {now : Instant} {key : String} {fields : Table String}
  {deadline : Option Instant} {increments : List (String × ℤ)}

theorem countAt_eq (h : s.writable now key = .ok (fields, deadline)) (field : String) :
    s.countAt now key field = countOf fields field := by
  unfold countAt
  rw [h]

/-- Hashes have the same fields after increments at once and one by one exactly if the last one of
every field stands. -/
theorem lastStands_iff (h : s.writable now key = .ok (fields, deadline)) :
    s.LastStands now key increments ↔ ∀ field,
      (increments.foldl stepped fields).get? field = (batched fields increments).get? field := by
  unfold LastStands
  refine forall_congr' fun field => ?_
  rw [get?_steps, get?_batched, countAt_eq h]
  cases hlast : (deltasOf field increments).getLast? with
  | none => exact iff_of_true nofun rfl
  | some delta =>
    have hne : deltasOf field increments ≠ [] := by
      intro hnil
      rw [hnil] at hlast
      cases hlast
    constructor
    · intro hsum
      rw [hsum delta rfl]
      rfl
    · rintro htext _ ⟨⟩
      -- what is written is read back, so equal texts are equal counts
      have hread := congrArg Text.signed? (Option.some.inj htext)
      rw [Text.signed?_toString_of_fits (fitsSigned_addUp _ hne), sumText,
        Text.signed?_toString_of_fits (Text.fitsSigned_addSaturating _ _)] at hread
      exact Option.some.inj hread

/-- Of a field that is not repeated, the only increment is the last. -/
theorem lastStands_of_nodup (hnodup : (increments.map (·.1)).Nodup) :
    s.LastStands now key increments := by
  intro field delta hlast
  have hlength : (deltasOf field increments).length ≤ 1 := by
    calc (deltasOf field increments).length
        = (increments.map (·.1)).count field := by
          rw [deltasOf, List.length_map, List.count, List.countP_map, List.countP_eq_length_filter]
          rfl
      _ ≤ 1 := List.nodup_iff_count_le_one.mp hnodup field
  match hdeltas : deltasOf field increments with
  | [] =>
    rw [hdeltas] at hlast
    cases hlast
  | [only] =>
    rw [hdeltas] at hlast
    cases hlast
    rfl
  | _ :: _ :: rest =>
    rw [hdeltas, List.length_cons, List.length_cons] at hlength
    omega

/-- Nothing to add. -/
theorem batchAgrees_nil_iff :
    s.BatchAgrees now key [] ↔ ∃ fields, s.live? now key = some (.hash fields) := by
  constructor
  · intro hagrees
    obtain ⟨hall, halike⟩ := hagrees.succeeds rfl
    cases hwritable : s.writable now key with
    | error e =>
      rw [(increments_of_writable_error hwritable []).1] at hall
      cases hall
    | ok start =>
      obtain ⟨fields, deadline⟩ := start
      rcases writable_eq_ok_iff.mp hwritable with hvisible | ⟨hmissing, _⟩
      · rw [live?_eq_map, hvisible]
        exact ⟨fields, rfl⟩
      · -- at once, the missing key becomes an empty hash
        have hcontains := halike.contains now (Instant.le_refl now) key
        have hmade := visible?_put_of_writable hwritable (.hash (batched fields []))
        rw [hashIncrementAll_eq hwritable, contains_answer, contains_answer] at hcontains
        simp [hashIncrementEach, fault?, hmissing, hmade] at hcontains
  · rintro ⟨fields, hlive⟩
    rw [live?_eq_map] at hlive
    obtain ⟨⟨_, deadline⟩, hvisible, rfl⟩ := Option.map_eq_some_iff.mp hlive
    -- at once, the hash is written back as it was
    have hall := hashIncrementAll_eq (writable_eq_ok_iff.mpr (.inl hvisible)) []
    have hsame : ∀ k, (s.put key (.hash fields) deadline).entries.get? k = s.entries.get? k := by
      intro k
      rw [get?_put]
      split
      · rename_i hk
        rw [hk, (visible?_eq_some_iff.mp hvisible).1]
      · rfl
    refine ⟨fun _ => ?_, fun _ h => by cases h⟩
    rw [hall]
    refine ⟨rfl, readAlike_of_sameContent fun k => ?_⟩
    show SameContent (s.entries.get? k) ((s.put key (.hash fields) deadline).entries.get? k)
    rw [hsame]
    exact .refl _

/-- What a reader of a field is told of a live hash. -/
theorem hashGet_of_entry {t : Store} (hentry : t.entries.get? key = some ⟨.hash fields, deadline⟩)
    (hlive : (⟨.hash fields, deadline⟩ : StoredEntry).isLive now = true) (field : String) :
    (t.hashGet now key field).1 = .ok (fields.get? field) := by
  rw [hashGet_answer, visible?_eq_some_iff.mpr ⟨hentry, hlive⟩]
  rfl

/-- Stores that hold the same off a key, and live hashes under it, are alike exactly if the hashes
have the same fields. -/
theorem readAlike_hash_iff {t t' : Store} {fields' : Table String}
    (hframe : ∀ k, k ≠ key → t.entries.get? k = t'.entries.get? k)
    (hentry : t.entries.get? key = some ⟨.hash fields, deadline⟩)
    (hentry' : t'.entries.get? key = some ⟨.hash fields', deadline⟩)
    (hlive : ∀ value, (⟨value, deadline⟩ : StoredEntry).isLive now = true) :
    ReadAlike now t t' ↔ ∀ field, fields.get? field = fields'.get? field := by
  constructor
  · intro halike field
    have hread := halike.hashGet now (Instant.le_refl now) key field
    rw [hashGet_of_entry hentry (hlive _), hashGet_of_entry hentry' (hlive _)] at hread
    exact Except.ok.inj hread
  · intro hfields
    refine readAlike_of_sameContent fun k => ?_
    by_cases hk : k = key
    · rw [hk, hentry, hentry']
      exact .hash deadline hfields
    · rw [hframe k hk]
      exact .refl _

/-- Failing is agreeing, with one error. -/
theorem batchAgrees_of_error {e : StoreError}
    (heach : (s.hashIncrementEach now key increments).1 = .error e)
    (hall : (s.hashIncrementAll now key increments).1 = .error e) :
    s.BatchAgrees now key increments where
  succeeds hok := by
    rw [heach] at hok
    cases hok
  fails e' he := by
    rw [hall, ← Except.error.inj (heach.symm.trans he)]

/-- Something to add. -/
theorem batchAgrees_iff_of_ne_nil (hne : increments ≠ []) :
    s.BatchAgrees now key increments ↔
      ((s.hashIncrementEach now key increments).1 = .ok () → s.LastStands now key increments) := by
  -- where one by one fails, both sides hold
  have hfails : ∀ {e}, (s.hashIncrementEach now key increments).1 = .error e →
      (s.hashIncrementAll now key increments).1 = .error e →
        (s.BatchAgrees now key increments ↔ ((s.hashIncrementEach now key increments).1 = .ok () →
          s.LastStands now key increments)) :=
    fun heach hall => iff_of_true (batchAgrees_of_error heach hall) fun hok => by
      cases heach.symm.trans hok
  cases hwritable : s.writable now key with
  | error e =>
    obtain ⟨hall, heach⟩ := increments_of_writable_error hwritable increments
    exact hfails (heach hne) hall
  | ok start =>
    obtain ⟨fields, deadline⟩ := start
    have hall := hashIncrementAll_eq hwritable increments
    have heach := hashIncrementEach_eq hwritable increments hne
    cases hfault : fault? fields increments with
    | some e =>
      rw [hfault] at hall heach
      exact hfails heach (congrArg Prod.fst hall)
    | none =>
      rw [hfault] at hall heach
      obtain ⟨hok, hentry⟩ := heach
      have hframe : ∀ k, k ≠ key → (s.hashIncrementEach now key increments).2.entries.get? k =
          (s.put key (.hash (batched fields increments)) deadline).entries.get? k := by
        intro k hk
        rw [(hashIncrementEach_actsOn now key increments).frame s k hk, get?_put, if_neg hk]
      have hentry' : (s.put key (.hash (batched fields increments)) deadline).entries.get? key =
          some ⟨.hash (batched fields increments), deadline⟩ := by
        rw [get?_put, if_pos rfl]
      have halike := readAlike_hash_iff hframe hentry hentry' (isLive_of_writable hwritable)
      rw [lastStands_iff hwritable, ← halike]
      constructor
      · intro hagrees _
        have h := (hagrees.succeeds hok).2
        rwa [hall] at h
      · intro h
        refine ⟨fun _ => ?_, fun e he => ?_⟩
        · rw [hall]
          exact ⟨rfl, h hok⟩
        · cases hok.symm.trans he

/-- Different fields can be added to at once. -/
theorem batchAgrees_of_nodup (hne : increments ≠ []) (hnodup : (increments.map (·.1)).Nodup) :
    s.BatchAgrees now key increments :=
  (batchAgrees_iff_of_ne_nil hne).mpr fun _ => lastStands_of_nodup hnodup

/-- Increments at once are increments one by one exactly where these fail or, first, the last
increment of every field makes of its count what all of them make of it and, second, there is a hash
already or something to add. -/
theorem batchAgrees_iff :
    s.BatchAgrees now key increments ↔
      ((s.hashIncrementEach now key increments).1 = .ok () →
        s.LastStands now key increments ∧
          (increments = [] → ∃ fields, s.live? now key = some (.hash fields))) := by
  by_cases hnil : increments = []
  · subst hnil
    rw [batchAgrees_nil_iff]
    exact ⟨fun h _ => ⟨nofun, fun _ => h⟩, fun h => (h rfl).2 rfl⟩
  · rw [batchAgrees_iff_of_ne_nil hnil]
    exact ⟨fun h hok => ⟨h hok, fun h => absurd h hnil⟩, fun h hok => (h hok).1⟩

/-- Of two increments of one field the first is lost at once; an empty list makes a hash at once,
and fails on a text. -/
theorem batch_diverges :
    ¬ empty.BatchAgrees ⟨0⟩ "h" [("n", 1), ("n", 2)] ∧ ¬ empty.BatchAgrees ⟨0⟩ "h" [] ∧
      ¬ (empty.put "h" (.text "v") none).BatchAgrees ⟨0⟩ "h" [] := by
  refine ⟨fun h => ?_, fun h => ?_, fun h => ?_⟩
  · have hread := (h.succeeds (by decide)).2.hashGet ⟨0⟩ (Instant.le_refl _) "h" "n"
    revert hread
    decide
  · have hread := (h.succeeds rfl).2.contains ⟨0⟩ (Instant.le_refl _) "h"
    revert hread
    decide
  · have hok := (h.succeeds rfl).1
    revert hok
    decide

end Agreement

end Bulwark.Store
