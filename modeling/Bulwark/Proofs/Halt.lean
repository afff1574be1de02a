import Bulwark.Halt
import Bulwark.Time.Clock

/-!
# What calls do if they end

A call in two parts ends as its second part does, where the first has ended, and halts where that
has halted (`bind_of_ok`, `bind_of_error`).  `IfEnds x s Q` says that a call started in a session
leaves what is described, unless it halts.  There is one rule for each way to put calls together.
-/

namespace Bulwark

/-- A call goes on where its first part has ended. -/
theorem bind_of_ok {σ γ δ : Type} {x : StateT σ (Except Halt) γ}
    {f : γ → StateT σ (Except Halt) δ} {s t : σ} {a : γ} (h : x s = .ok (a, t)) :
    (x >>= f) s = f a t := by
  show (x s).bind (fun p => f p.1 p.2) = _
  rw [h]
  rfl

/-- A call that halts in its first part halts. -/
theorem bind_of_error {σ γ δ : Type} {x : StateT σ (Except Halt) γ}
    {f : γ → StateT σ (Except Halt) δ} {s : σ} {e : Halt} (h : x s = .error e) :
    (x >>= f) s = .error e := by
  show (x s).bind (fun p => f p.1 p.2) = _
  rw [h]
  rfl

theorem bind_congr_left {σ γ δ : Type} {x y : StateT σ (Except Halt) γ}
    {f : γ → StateT σ (Except Halt) δ} {s : σ} (h : x s = y s) : (x >>= f) s = (y >>= f) s := by
  show (x s).bind (fun p => f p.1 p.2) = _
  rw [h]
  rfl

/-- If a call ends, its answer and the session after it are as described. -/
def IfEnds {σ γ : Type} (x : StateT σ (Except Halt) γ) (s : σ) (Q : γ → σ → Prop) : Prop :=
  ∀ answer t, x s = .ok (answer, t) → Q answer t

namespace IfEnds

variable {σ γ δ : Type} {s : σ}

theorem pure {Q : γ → σ → Prop} {answer : γ} (h : Q answer s) :
    IfEnds (pure answer : StateT σ (Except Halt) γ) s Q := by
  rintro _ _ ⟨⟩
  exact h

theorem bind {x : StateT σ (Except Halt) γ} {f : γ → StateT σ (Except Halt) δ} {Q : δ → σ → Prop}
    (h : IfEnds x s fun answer t => IfEnds (f answer) t Q) : IfEnds (x >>= f) s Q := by
  intro answer u hends
  change (x s).bind (fun p => f p.1 p.2) = _ at hends
  cases hx : x s with
  | error halt =>
    rw [hx] at hends
    cases hends
  | ok p =>
    rw [hx] at hends
    exact h p.1 p.2 hx answer u hends

theorem mono {x : StateT σ (Except Halt) γ} {Q Q' : γ → σ → Prop} (h : IfEnds x s Q)
    (himp : ∀ answer t, Q answer t → Q' answer t) : IfEnds x s Q' :=
  fun answer t hends => himp answer t (h answer t hends)

theorem map {x : StateT σ (Except Halt) γ} {f : γ → δ} {Q : δ → σ → Prop}
    (h : IfEnds x s fun answer t => Q (f answer) t) : IfEnds (do return f (← x)) s Q :=
  bind (h.mono fun _ _ hQ => pure hQ)

protected theorem modify {f : σ → σ} {Q : Unit → σ → Prop} (h : Q () (f s)) :
    IfEnds (modify f : StateT σ (Except Halt) Unit) s Q := by
  rintro _ _ ⟨⟩
  exact h

theorem modify_bind {f : σ → σ} {g : Unit → StateT σ (Except Halt) γ} {Q : γ → σ → Prop}
    (h : IfEnds (g ()) (f s) Q) : IfEnds (modify f >>= g) s Q :=
  bind (IfEnds.modify h)

theorem get {Q : σ → σ → Prop} (h : Q s s) : IfEnds (get : StateT σ (Except Halt) σ) s Q := by
  rintro _ _ ⟨⟩
  exact h

theorem throw {halt : Halt} {Q : γ → σ → Prop} :
    IfEnds (throw halt : StateT σ (Except Halt) γ) s Q := nofun

/-- Dating the clock's reading leaves the session as it is. -/
theorem ofClock {now : Instant} {Q : Timestamp → σ → Prop} (h : ∀ date, Q date s) :
    IfEnds (Timestamp.ofClock now) s Q := by
  intro date t hends
  unfold Timestamp.ofClock at hends
  cases hdate : Timestamp.ofInstant? now with
  | none =>
    rw [hdate] at hends
    cases hends
  | some d =>
    rw [hdate] at hends
    obtain ⟨rfl, rfl⟩ := Prod.mk.inj (Except.ok.inj hends)
    exact h _

end IfEnds
end Bulwark
