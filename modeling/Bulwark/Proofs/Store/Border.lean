import Bulwark.Proofs.Halt
import Bulwark.Proofs.Store.Alike

/-!
# Calls that keep to their side of a store

Two parts of a program share a store and do not disturb each other, as long as each works on keys of
its own.  A `Border` says what that is for one kind of session: what the calls on one side go by, and
how far they reach into what others go by.  `Confined` says that a call keeps to its side.  There is
one rule for each way to put calls together, so a call is confined as soon as its store calls are.

Sessions of limiters and of blacklists hold a gate beside things of their own (`Gated`).  Their calls
go by the entries under their own keys and change no others (`Gated.border`).
-/

namespace Bulwark

/-! ## Borders -/

/-- Two results halt for one reason, or give one answer and sessions that are related. -/
inductive SameEnd {σ γ : Type} (R : σ → σ → Prop) :
    Except Halt (γ × σ) → Except Halt (γ × σ) → Prop where
  | halt (h : Halt) : SameEnd R (.error h) (.error h)
  | answer (a : γ) {t t' : σ} (related : R t t') : SameEnd R (.ok (a, t)) (.ok (a, t'))

theorem SameEnd.of_ok {σ γ : Type} {R : σ → σ → Prop} {r r' : γ × σ}
    (h : SameEnd R (.ok r) (.ok r')) : r.1 = r'.1 ∧ R r.2 r'.2 := by
  cases h with
  | answer a ht => exact ⟨rfl, ht⟩

/-- What the calls on one side go by, and what they may do. -/
structure Border (σ : Type) where
  /-- Sessions that are the same to the calls on this side. -/
  same : σ → σ → Prop
  /-- What such a call may make of a session. -/
  reaches : σ → σ → Prop
  refl : ∀ s, reaches s s
  trans : ∀ {s t u}, reaches s t → reaches t u → reaches s u

/-- A call that keeps to its side. -/
structure Confined {σ γ : Type} (b : Border σ) (x : StateT σ (Except Halt) γ) : Prop where
  congr : ∀ s s', b.same s s' → SameEnd b.same (x s) (x s')
  reaches : ∀ s a t, x s = .ok (a, t) → b.reaches s t

namespace Confined

variable {σ γ δ : Type} {b : Border σ}

theorem pure (a : γ) : Confined b (pure a) where
  congr := fun _ _ h => .answer a h
  reaches := fun s _ _ h => by
    obtain ⟨_, rfl⟩ := Prod.mk.inj (Except.ok.inj h)
    exact b.refl s

/-- What follows a call has to be confined for the answers that the call can give. -/
theorem bind_of_answers {x : StateT σ (Except Halt) γ} {f : γ → StateT σ (Except Halt) δ}
    {P : γ → Prop} (hx : Confined b x) (hanswers : ∀ s a t, x s = .ok (a, t) → P a)
    (hf : ∀ a, P a → Confined b (f a)) : Confined b (x >>= f) where
  congr := fun s s' h => by
    have hfirst := hx.congr s s' h
    generalize hr : x s = r at hfirst
    generalize hr' : x s' = r' at hfirst
    cases hfirst with
    | halt e =>
      rw [bind_of_error hr, bind_of_error hr']
      exact .halt e
    | answer a ht =>
      rw [bind_of_ok hr, bind_of_ok hr']
      exact (hf a (hanswers s a _ hr)).congr _ _ ht
  reaches := fun s d u h => by
    cases hr : x s with
    | error e =>
      rw [bind_of_error hr] at h
      cases h
    | ok p =>
      rw [bind_of_ok hr] at h
      exact b.trans (hx.reaches s p.1 p.2 hr)
        ((hf p.1 (hanswers s p.1 p.2 hr)).reaches p.2 d u h)

theorem bind {x : StateT σ (Except Halt) γ} {f : γ → StateT σ (Except Halt) δ}
    (hx : Confined b x) (hf : ∀ a, Confined b (f a)) : Confined b (x >>= f) :=
  hx.bind_of_answers (P := fun _ => True) (fun _ _ _ _ => trivial) fun a _ => hf a

theorem map {x : StateT σ (Except Halt) γ} {f : γ → δ} (hx : Confined b x) :
    Confined b (do return f (← x)) := hx.bind fun a => pure (f a)

/-- A call that answers in another shape. -/
theorem mapped {x : StateT σ (Except Halt) γ} (hx : Confined b x) (f : γ → δ) :
    Confined b fun s => (x s).map fun r => (f r.1, r.2) := hx.map

/-- A call whose first part looks at the session. -/
theorem get_bind {f : σ → StateT σ (Except Halt) γ} {g : γ → StateT σ (Except Halt) δ}
    (hf : Confined b fun s => f s s) (hg : ∀ a, Confined b (g a)) :
    Confined b (do g (← f (← get))) := hf.bind hg

/-- A call that reaches less far keeps to its side all the more. -/
theorem mono {b' : Border σ} {x : StateT σ (Except Halt) γ} (hx : Confined b x)
    (hsame : b'.same = b.same) (hreaches : ∀ s t, b.reaches s t → b'.reaches s t) :
    Confined b' x where
  congr := hsame ▸ hx.congr
  reaches := fun s a t h => hreaches s t (hx.reaches s a t h)

theorem ofClock (now : Instant) : Confined b (Timestamp.ofClock now) := by
  unfold Timestamp.ofClock
  cases Timestamp.ofInstant? now with
  | none => exact ⟨fun _ _ _ => .halt .undatable, fun _ _ _ h => by cases h⟩
  | some date => exact pure date

end Confined

/-! ## Sessions with a gate -/

/-- What a call may do to a store. -/
structure Store.Change where
  allows : Store → Store → Prop
  refl : ∀ s, allows s s
  trans : ∀ {s t u}, allows s t → allows t u → allows s u

/-- Anything. -/
def Store.Change.any : Store.Change := ⟨fun _ _ => True, fun _ => trivial, fun _ _ => trivial⟩

/-- Entries are removed, and none is written. -/
def Store.Change.removal : Store.Change where
  allows s t := ∀ key e, t.entries.get? key = some e → s.entries.get? key = some e
  refl _ _ _ h := h
  trans h h' key e he := h key e (h' key e he)

namespace Store

variable (now : Instant) (key : String) (s : Store)

theorem dropExpired_removes : Change.removal.allows s (s.dropExpired now key) := by
  intro k e he
  rw [get?_dropExpired] at he
  split at he
  · rename_i hk
    rw [hk]
    exact (Option.filter_eq_some_iff.mp he).1
  · exact he

theorem get_removes : Change.removal.allows s (s.get now key).2 := by
  unfold get
  split
  · exact dropExpired_removes now key s
  · exact Change.removal.refl s
  · exact Change.removal.refl s

theorem ttl_removes : Change.removal.allows s (s.ttl now key).2 := by
  unfold ttl
  split
  · exact dropExpired_removes now key s
  · split
    · exact Change.removal.refl s
    · exact Change.removal.refl s

theorem delete_removes : Change.removal.allows s (s.delete now key).2 := by
  intro k e he
  have he : (s.entries.erase key).get? k = some e := he
  rw [Table.get?_erase] at he
  split at he
  · cases he
  · exact he

end Store

/-- A session that holds a gate, among other things. -/
structure Gated (σ : Type) where
  gate : σ → Gate
  withGate : σ → Gate → σ
  gate_withGate : ∀ s g, gate (withGate s g) = g
  withGate_withGate : ∀ s g g', withGate (withGate s g) g' = withGate s g'

namespace Gated

variable {σ γ : Type} (G : Gated σ) (own : String → Prop) (change : Store.Change)

/-- Calls go by what is in the session and by the entries under their own keys, and change no
others. -/
def border : Border σ where
  same s s' := Gate.Alike (¬ own ·) (G.gate s) (G.gate s') ∧ s' = G.withGate s (G.gate s')
  reaches s t := (G.gate s).IsOpen →
    Gate.Alike own (G.gate s) (G.gate t) ∧ change.allows (G.gate s).store (G.gate t).store
  refl _ hopen := ⟨.refl hopen, change.refl _⟩
  trans h h' hopen :=
    let first := h hopen
    let last := h' first.1.isOpen'
    ⟨first.1.trans last.1, change.trans first.2 last.2⟩

variable {G own change}

/-- A step that works at the gate. -/
theorem confined_gate {f : Gate → γ × Gate}
    (hsame : ∀ g g', Gate.Alike (¬ own ·) g g' →
      (f g).1 = (f g').1 ∧ Gate.Alike (¬ own ·) (f g).2 (f g').2)
    (hreaches : ∀ g, g.IsOpen → Gate.Alike own g (f g).2 ∧ change.allows g.store (f g).2.store) :
    Confined (G.border own change) fun s =>
      .ok ((f (G.gate s)).1, G.withGate s (f (G.gate s)).2) where
  congr := fun s s' ⟨hgate, hrest⟩ => by
    obtain ⟨hanswer, hafter⟩ := hsame _ _ hgate
    rw [hanswer]
    refine .answer _ ⟨?_, ?_⟩
    · rw [G.gate_withGate, G.gate_withGate]
      exact hafter
    · rw [G.gate_withGate, G.withGate_withGate]
      generalize G.gate s' = g' at hrest ⊢
      rw [hrest, G.withGate_withGate]
  reaches := fun s a t h hopen => by
    obtain ⟨_, rfl⟩ := Prod.mk.inj (Except.ok.inj h)
    rw [G.gate_withGate]
    exact hreaches _ hopen

/-- A store call about a key of one's own. -/
theorem confined_call {key : String} {operation : Store → Store.Result γ}
    (hacts : Store.ActsOn key operation) (hown : own key)
    (hchange : ∀ s, change.allows s (operation s).2) :
    Confined (G.border own change) fun s =>
      .ok (((G.gate s).call operation).1, G.withGate s ((G.gate s).call operation).2) := by
  refine confined_gate (f := fun g => g.call operation)
    (fun g g' halike => halike.call hacts fun hnot => hnot hown)
    fun g hopen => ⟨hopen.alike_call hacts hown, ?_⟩
  rw [Gate.call_of_pass hopen.refusal?]
  exact hchange _

/-- A page of keys of one's own. -/
theorem confined_scan {keyPrefix : String}
    (hown : ∀ key, Text.startsWith keyPrefix key = true → own key) (now : Instant)
    (cursor count : ℕ) :
    Confined (G.border own change) fun s =>
      .ok (((G.gate s).scan now keyPrefix cursor count).1,
        G.withGate s ((G.gate s).scan now keyPrefix cursor count).2) := by
  refine confined_gate (f := fun g => g.scan now keyPrefix cursor count)
    (fun g g' halike =>
      ⟨halike.scan (fun key hkey hnot => hnot (hown key hkey)) now cursor count, ?_⟩)
    fun g hopen => ?_
  · rw [halike.isOpen.scan_eq, halike.isOpen'.scan_eq]
    exact halike.next
  · rw [hopen.scan_eq]
    refine ⟨hopen.alike_next, ?_⟩
    rw [Gate.next_store]
    exact change.refl _

/-- A step that leaves the gate alone and does not look at it. -/
theorem confined_aside {a : σ → γ} {f : σ → σ} (ha : ∀ s g, a (G.withGate s g) = a s)
    (hf : ∀ s g, f (G.withGate s g) = G.withGate (f s) g) (hgate : ∀ s, G.gate (f s) = G.gate s) :
    Confined (G.border own change) fun s => .ok (a s, f s) where
  congr := fun s s' ⟨halike, hrest⟩ => by
    have hanswer : a s' = a s := by rw [hrest, ha]
    rw [hanswer]
    refine .answer _ ⟨?_, ?_⟩
    · rw [hgate, hgate]
      exact halike
    · rw [hgate]
      generalize G.gate s' = g' at hrest ⊢
      rw [hrest, hf]
  reaches := fun s _ t h hopen => by
    obtain ⟨_, rfl⟩ := Prod.mk.inj (Except.ok.inj h)
    rw [hgate]
    exact ⟨.refl hopen, change.refl _⟩

end Gated
end Bulwark
