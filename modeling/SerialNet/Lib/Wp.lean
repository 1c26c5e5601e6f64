import Mathlib.Tactic

/-! Preconditions for programs with a state that can fail. The state at the failure is kept,
so that something can be said about it. -/

namespace EStateM

variable {ε σ α β : Type}

theorem get_bind {f : σ → EStateM ε σ β} (s : σ) : (get >>= f) s = f s s := rfl

theorem set_bind {f : PUnit → EStateM ε σ β} (s t : σ) : (set t >>= f) s = f .unit t := rfl

theorem bind_of_error {x : EStateM ε σ α} {f : α → EStateM ε σ β} {s t : σ} {e : ε} (run : x s = .error e t) :
    (x >>= f) s = .error e t := by
  change EStateM.bind x f s = _
  unfold EStateM.bind
  rw [run]

theorem bind_of_ok {x : EStateM ε σ α} {f : α → EStateM ε σ β} {s t : σ} {a : α} (run : x s = .ok a t) :
    (x >>= f) s = f a t := by
  change EStateM.bind x f s = _
  unfold EStateM.bind
  rw [run]

/-- From `s` the program ends with `Q`, or fails with `E`. -/
def Wp (x : EStateM ε σ α) (Q : α → σ → Prop) (E : ε → σ → Prop) (s : σ) : Prop :=
  match x s with
  | .ok a t => Q a t
  | .error e t => E e t

/-- The state in which the program ends, one way or the other. -/
def final (x : EStateM ε σ α) (s : σ) : σ :=
  match x s with
  | .ok _ t => t
  | .error _ t => t

def succeeds (x : EStateM ε σ α) (s : σ) : Bool :=
  match x s with
  | .ok _ _ => true
  | .error _ _ => false

theorem eq_ok_of_succeeds {x : EStateM ε σ Unit} {s : σ} (succeeds : x.succeeds s = true) :
    x s = .ok () (x.final s) := by
  unfold EStateM.succeeds at succeeds
  unfold final
  cases run : x s with
  | ok a t => rfl
  | error e t =>
    rw [run] at succeeds
    cases succeeds

namespace Wp

variable {x : EStateM ε σ α} {f : α → EStateM ε σ β} {Q : α → σ → Prop} {E : ε → σ → Prop} {s : σ}

theorem of_ok {a : α} {t : σ} (wp : Wp x Q E s) (run : x s = .ok a t) : Q a t := by
  unfold Wp at wp
  rw [run] at wp
  exact wp

theorem of_error {e : ε} {t : σ} (wp : Wp x Q E s) (run : x s = .error e t) : E e t := by
  unfold Wp at wp
  rw [run] at wp
  exact wp

theorem of_run {a : α} {t : σ} (run : x s = .ok a t) (holds : Q a t) : Wp x Q E s := by
  unfold Wp
  rw [run]
  exact holds

theorem bind_iff {R : β → σ → Prop} : Wp (x >>= f) R E s ↔ Wp x (fun a t => Wp (f a) R E t) E s := by
  change Wp (EStateM.bind x f) R E s ↔ _
  unfold Wp EStateM.bind
  cases x s with
  | ok a t => exact Iff.rfl
  | error e t => exact Iff.rfl

theorem mono {Q' : α → σ → Prop} {E' : ε → σ → Prop} (wp : Wp x Q E s) (ok : ∀ a t, Q a t → Q' a t)
    (error : ∀ e t, E e t → E' e t) : Wp x Q' E' s := by
  unfold Wp at wp ⊢
  cases run : x s with
  | ok a t =>
    rw [run] at wp
    exact ok a t wp
  | error e t =>
    rw [run] at wp
    exact error e t wp

theorem final (P : σ → Prop) (wp : Wp x (fun _ t => P t) (fun _ t => P t) s) : P (x.final s) := by
  unfold Wp at wp
  unfold EStateM.final
  cases run : x s with
  | ok a t =>
    rw [run] at wp
    exact wp
  | error e t =>
    rw [run] at wp
    exact wp

end Wp

end EStateM
