import Bulwark.Proofs.Revocation.Entry
import Bulwark.Proofs.Store.Gate
import Bulwark.Proofs.Store.Rename
import Bulwark.Revocation.Call

/-!
# Two tokens in each other's place

Two runs that differ only in that each of two tokens stands where the other stands in the other run:
in the arguments of calls and in the keys of the store.  `Mirrored` relates the gates of the two
runs, and `Agrees` two calls that take mirrored gates to mirrored gates and report the same events.
There is one rule for each way to put calls together and for each primitive.

Scans walk the keys by their positions, of which the tokens say nothing.  Only where scans are made,
the positions have to be mirrored too.
-/

namespace Bulwark

/-- Two tokens that take each other's place under a prefix. -/
structure Exchange where
  keyPrefix : String
  token : String
  other : String

namespace Exchange

variable (x : Exchange)

/-- The exchange of the tokens. -/
def onTokens : Equiv.Perm String := Equiv.swap x.token x.other

/-- The exchange of their keys. -/
def onKeys : Equiv.Perm String := Equiv.swap (x.keyPrefix ++ x.token) (x.keyPrefix ++ x.other)

theorem onKeys_append (token : String) :
    x.onKeys (x.keyPrefix ++ token) = x.keyPrefix ++ x.onTokens token := by
  unfold onKeys onTokens
  rw [Equiv.swap_apply_def, Equiv.swap_apply_def]
  simp only [String.append_right_inj]
  split
  · rfl
  · split <;> rfl

theorem startsWith_onKeys (key : String) :
    Text.startsWith x.keyPrefix (x.onKeys key) = Text.startsWith x.keyPrefix key := by
  unfold onKeys
  rw [Equiv.swap_apply_def]
  split
  · rename_i heq
    rw [heq, Text.startsWith_append, Text.startsWith_append]
  · split
    · rename_i heq
      rw [heq, Text.startsWith_append, Text.startsWith_append]
    · rfl

/-- Neither token is blank, and both have one mask. -/
structure Masked : Prop where
  token_not_blank : Text.allBlank x.token = false
  other_not_blank : Text.allBlank x.other = false
  mask_eq : maskToken x.token = maskToken x.other

variable {x}

/-- Only the two tokens are exchanged. -/
theorem eq_of_onTokens_ne {token : String} (h : x.onTokens token ≠ token) :
    token = x.token ∨ token = x.other := by
  by_contra hnot
  rw [not_or] at hnot
  exact h (Equiv.swap_apply_of_ne_of_ne hnot.1 hnot.2)

/-- A function that does not tell the tokens apart. -/
theorem apply_onTokens {β : Type} {f : String → β} (h : f x.token = f x.other) (token : String) :
    f (x.onTokens token) = f token := by
  unfold onTokens
  rw [Equiv.swap_apply_def]
  split
  · rename_i heq
    rw [heq, h]
  · split
    · rename_i heq
      rw [heq, h]
    · rfl

theorem Masked.mask_onTokens (h : x.Masked) (token : String) :
    maskToken (x.onTokens token) = maskToken token := apply_onTokens h.mask_eq token

theorem Masked.allBlank_onTokens (h : x.Masked) (token : String) :
    Text.allBlank (x.onTokens token) = Text.allBlank token :=
  apply_onTokens (h.token_not_blank.trans h.other_not_blank.symm) token

/-! ## Gates -/

/-- Two gates are in the same state, but for the exchange of the two keys; if scans are made, the
keys have positions of their own and the exchanged keys have each other's. -/
structure Mirrored (x : Exchange) (scans : Prop) (g g' : Gate) : Prop where
  store_eq : g'.store = g.store.rename x.onKeys
  plan_eq : g'.plan = g.plan
  failing_eq : g'.failing = g.failing
  position_eq : scans → ∀ key, g'.position (x.onKeys key) = g.position key
  position_injective : scans → Function.Injective g.position

variable {scans : Prop} {g g' : Gate}

theorem Mirrored.refusal?_eq (h : x.Mirrored scans g g') : g'.refusal? = g.refusal? := by
  unfold Gate.refusal?
  rw [h.plan_eq, h.failing_eq]

theorem Mirrored.next (h : x.Mirrored scans g g') : x.Mirrored scans g.next g'.next where
  store_eq := by rw [Gate.next_store, Gate.next_store, h.store_eq]
  plan_eq := by
    unfold Gate.next
    rw [h.plan_eq]
    rcases g.plan with _ | ⟨_ | _, _⟩
    · rfl
    · rfl
    · rfl
  failing_eq := by rw [Gate.next_failing, Gate.next_failing, h.failing_eq]
  position_eq hscans := by
    rw [Gate.next_position, Gate.next_position]
    exact h.position_eq hscans
  position_injective hscans := by
    rw [Gate.next_position]
    exact h.position_injective hscans

/-- Both stores hold as many keys. -/
theorem Mirrored.size_eq (h : x.Mirrored scans g g') :
    g'.store.entries.size = g.store.entries.size := by
  rw [h.store_eq]
  exact List.length_map _

/-- Operations that answer alike and leave mirrored stores do so behind mirrored gates. -/
theorem Mirrored.call {β γ : Type} (h : x.Mirrored scans g g') {operation : Store → Store.Result β}
    {operation' : Store → Store.Result γ} {R : Except StoreError β → Except StoreError γ → Prop}
    (hrefused : ∀ e, R (.error e) (.error e))
    (hanswers : R (operation g.store).1 (operation' g'.store).1)
    (hstores : (operation' g'.store).2 = (operation g.store).2.rename x.onKeys) :
    x.Mirrored scans (g.call operation).2 (g'.call operation').2 ∧
      R (g.call operation).1 (g'.call operation').1 := by
  -- a refusal depends on the plan and the switch, which are the same for both
  cases hrefusal : g.refusal? with
  | some e =>
    rw [Gate.call_of_refusal hrefusal, Gate.call_of_refusal (h.refusal?_eq.trans hrefusal)]
    exact ⟨h.next, hrefused e⟩
  | none =>
    rw [Gate.call_of_pass hrefusal, Gate.call_of_pass (h.refusal?_eq.trans hrefusal)]
    refine ⟨?_, hanswers⟩
    exact { h.next with store_eq := hstores }

end Exchange

/-! ## Calls -/

namespace Blacklist

/-- Two results halt for one reason, or end with answers and sessions that are related. -/
def Together {β γ : Type} (P : β → Session → γ → Session → Prop) :
    Except Halt (β × Session) → Except Halt (γ × Session) → Prop
  | .ok (answer, t), .ok (answer', t') => P answer t answer' t'
  | .error halt, .error halt' => halt = halt'
  | _, _ => False

theorem Together.cases {β γ : Type} {P : β → Session → γ → Session → Prop}
    {r : Except Halt (β × Session)} {r' : Except Halt (γ × Session)} (h : Together P r r') :
    (∃ halt, r = .error halt ∧ r' = .error halt) ∨
      ∃ answer t answer' t', r = .ok (answer, t) ∧ r' = .ok (answer', t') ∧
        P answer t answer' t' := by
  match r, r', h with
  | .ok (answer, t), .ok (answer', t'), h => exact .inr ⟨answer, t, answer', t', rfl, rfl, h⟩
  | .error halt, .error _, rfl => exact .inl ⟨halt, rfl, rfl⟩

theorem Together.mono {β γ : Type} {P Q : β → Session → γ → Session → Prop}
    {r : Except Halt (β × Session)} {r' : Except Halt (γ × Session)} (h : Together P r r')
    (himp : ∀ answer t answer' t', P answer t answer' t' → Q answer t answer' t') :
    Together Q r r' := by
  rcases h.cases with ⟨halt, rfl, rfl⟩ | ⟨answer, t, answer', t', rfl, rfl, hP⟩
  · exact rfl
  · exact himp answer t answer' t' hP

theorem Together.map {β γ δ ε : Type} {P : Session → Session → Prop} {c : Action β} {c' : Action γ}
    {f : β → δ} {f' : γ → ε} {s s' : Session}
    (h : Together (fun _ t _ t' => P t t') (c s) (c' s')) :
    Together (fun _ t _ t' => P t t') ((do return f (← c) : Action δ) s)
      ((do return f' (← c') : Action ε) s') := by
  show Together _ ((c s).bind fun p => .ok (f p.1, p.2)) ((c' s').bind fun p => .ok (f' p.1, p.2))
  rcases h.cases with ⟨halt, hc, hc'⟩ | ⟨answer, t, answer', t', hc, hc', hP⟩
  · rw [hc, hc']
    exact rfl
  · rw [hc, hc']
    exact hP

/-- From mirrored sessions two calls halt for one reason, or end in mirrored sessions with the same
events and related answers. -/
def Agrees {β γ : Type} (x : Exchange) (scans : Prop) (c : Action β) (c' : Action γ)
    (R : β → γ → Prop) : Prop :=
  ∀ s s' : Session, x.Mirrored scans s.gate s'.gate → s.events = s'.events →
    Together (fun answer t answer' t' => x.Mirrored scans t.gate t'.gate ∧ t.events = t'.events ∧
      R answer answer') (c s) (c' s')

section Rules

variable {β γ δ ε : Type} {x : Exchange} {scans : Prop}

theorem Agrees.pure {R : β → γ → Prop} {answer : β} {answer' : γ} (h : R answer answer') :
    Agrees x scans (pure answer) (pure answer') R :=
  fun _ _ hgate hevents => ⟨hgate, hevents, h⟩

theorem Agrees.bind {c : Action β} {c' : Action γ} {f : β → Action δ} {f' : γ → Action ε}
    {R : β → γ → Prop} {S : δ → ε → Prop} (h : Agrees x scans c c' R)
    (hf : ∀ answer answer', R answer answer' → Agrees x scans (f answer) (f' answer') S) :
    Agrees x scans (c >>= f) (c' >>= f') S := by
  intro s s' hgate hevents
  show Together _ ((c s).bind fun p => f p.1 p.2) ((c' s').bind fun p => f' p.1 p.2)
  rcases (h s s' hgate hevents).cases with
    ⟨halt, hc, hc'⟩ | ⟨answer, t, answer', t', hc, hc', ht, hreported, hR⟩
  · rw [hc, hc']
    exact rfl
  · rw [hc, hc']
    exact hf answer answer' hR t t' ht hreported

theorem Agrees.map {c : Action β} {c' : Action γ} {f : β → δ} {f' : γ → ε}
    {R : β → γ → Prop} {S : δ → ε → Prop} (h : Agrees x scans c c' R)
    (hf : ∀ answer answer', R answer answer' → S (f answer) (f' answer')) :
    Agrees x scans (do return f (← c)) (do return f' (← c')) S :=
  h.bind fun answer answer' hR => .pure (hf answer answer' hR)

theorem Agrees.report {events events' : List Event} (h : events = events') :
    Agrees x scans (report events) (report events') fun _ _ => True := by
  intro s s' hgate hevents
  refine ⟨hgate, ?_, trivial⟩
  show s.events ++ events = s'.events ++ events'
  rw [hevents, h]

theorem Agrees.count (f f' : RevocationCount → RevocationCount) :
    Agrees x scans (count f) (count f') fun _ _ => True :=
  fun _ _ hgate hevents => ⟨hgate, hevents, trivial⟩

theorem Agrees.get : Agrees x scans (get : Action Session) get
    fun s s' => x.Mirrored scans s.gate s'.gate :=
  fun _ _ hgate hevents => ⟨hgate, hevents, hgate⟩

theorem Agrees.ofClock (now : Instant) :
    Agrees x scans (Timestamp.ofClock now) (Timestamp.ofClock now) Eq := by
  intro s s' hgate hevents
  unfold Timestamp.ofClock
  cases Timestamp.ofInstant? now with
  | none => exact rfl
  | some date => exact ⟨hgate, hevents, rfl⟩

/-- Store calls agree if their operations answer alike and leave mirrored stores. -/
theorem Agrees.callStore {operation : Store → Store.Result β} {operation' : Store → Store.Result γ}
    {R : Except StoreError β → Except StoreError γ → Prop} (hrefused : ∀ e, R (.error e) (.error e))
    (hanswers : ∀ s : Store, R (operation s).1 (operation' (s.rename x.onKeys)).1)
    (hstores : ∀ s : Store, (operation' (s.rename x.onKeys)).2 = (operation s).2.rename x.onKeys) :
    Agrees x scans (callStore operation) (callStore operation') R := by
  intro s s' hgate hevents
  obtain ⟨hafter, hR⟩ := hgate.call hrefused (by rw [hgate.store_eq]; exact hanswers s.gate.store)
    (by rw [hgate.store_eq]; exact hstores s.gate.store)
  exact ⟨hafter, hevents, hR⟩

end Rules
end Blacklist
end Bulwark
