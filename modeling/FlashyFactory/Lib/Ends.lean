import Mathlib.Logic.Relation

/-! # How programs with a state and exceptions end

`Ends x s Q E` says that `x`, started in `s`, returns as `Q` requires or raises as `E` requires. What the
handled part of a program did stays, since the state outlives the exception. `Stays R x` says that a program
takes every state to one that is related to it; such programs are built from their requests. -/

universe u

def Ends {ε σ α : Type u} (x : EStateM ε σ α) (s : σ) (Q : α → σ → Prop) (E : ε → σ → Prop) : Prop :=
  match x s with
  | .ok a t => Q a t
  | .error e t => E e t

/-- `except` of every exception -/
def attempt {ε σ α : Type u} (x : EStateM ε σ α) : EStateM ε σ (Except ε α) := fun s =>
  match x s with
  | .ok a t => .ok (.ok a) t
  | .error e t => .ok (.error e) t

namespace Ends
variable {ε σ α β : Type u} {s t : σ} {Q : α → σ → Prop} {E : ε → σ → Prop}

theorem ok_iff {x : EStateM ε σ α} (h : x s = .ok a t) : Ends x s Q E ↔ Q a t := by
  rw [Ends, h]

theorem error_iff {x : EStateM ε σ α} (h : x s = .error e t) : Ends x s Q E ↔ E e t := by
  rw [Ends, h]

theorem mono {x : EStateM ε σ α} {Q' : α → σ → Prop} {E' : ε → σ → Prop} (h : Ends x s Q E)
    (hQ : ∀ a t, Q a t → Q' a t) (hE : ∀ e t, E e t → E' e t) : Ends x s Q' E' := by
  cases hx : x s with
  | ok a t => exact (ok_iff hx).mpr (hQ a t ((ok_iff hx).mp h))
  | error e t => exact (error_iff hx).mpr (hE e t ((error_iff hx).mp h))

theorem and {x : EStateM ε σ α} {Q' : α → σ → Prop} {E' : ε → σ → Prop} (h : Ends x s Q E)
    (h' : Ends x s Q' E') :
    Ends x s (fun a t => Q a t ∧ Q' a t) (fun e t => E e t ∧ E' e t) := by
  cases hx : x s with
  | ok a t => exact (ok_iff hx).mpr ⟨(ok_iff hx).mp h, (ok_iff hx).mp h'⟩
  | error e t => exact (error_iff hx).mpr ⟨(error_iff hx).mp h, (error_iff hx).mp h'⟩

/-- What always raises does not return. -/
theorem absurd {x : EStateM ε σ α} {E' : ε → σ → Prop} (h : Ends x s Q fun _ _ => False)
    (h' : Ends x s (fun _ _ => False) E') : False := by
  cases hx : x s with
  | ok a t => exact (ok_iff hx).mp h'
  | error e t => exact (error_iff hx).mp h

@[simp] theorem pure_iff {a : α} : Ends (pure a : EStateM ε σ α) s Q E ↔ Q a s := ok_iff rfl

@[simp] theorem throw_iff {e : ε} : Ends (throw e : EStateM ε σ α) s Q E ↔ E e s := error_iff rfl

@[simp] theorem bind_iff {x : EStateM ε σ α} {f : α → EStateM ε σ β} {Q : β → σ → Prop} :
    Ends (x >>= f) s Q E ↔ Ends x s (fun a t => Ends (f a) t Q E) E := by
  cases hx : x s with
  | ok a t =>
    have hbind : (x >>= f) s = f a t := by
      change EStateM.bind x f s = _
      simp [EStateM.bind, hx]
    rw [ok_iff hx, Ends, hbind]
    rfl
  | error e t =>
    have hbind : (x >>= f) s = .error e t := by
      change EStateM.bind x f s = _
      simp [EStateM.bind, hx]
    rw [error_iff hx, error_iff hbind]

@[simp] theorem attempt_iff {x : EStateM ε σ α} {Q : Except ε α → σ → Prop} :
    Ends (attempt x) s Q E ↔ Ends x s (fun a => Q (.ok a)) (fun e => Q (.error e)) := by
  cases hx : x s with
  | ok a t =>
    have hattempt : attempt x s = .ok (.ok a) t := by simp [attempt, hx]
    rw [ok_iff hx, ok_iff hattempt]
  | error e t =>
    have hattempt : attempt x s = .ok (.error e) t := by simp [attempt, hx]
    rw [error_iff hx, ok_iff hattempt]

end Ends

/-! ## Programs that keep to a relation -/

def Stays {ε σ α : Type u} (R : σ → σ → Prop) (x : EStateM ε σ α) : Prop :=
  ∀ s, Ends x s (fun _ t => R s t) (fun _ t => R s t)

namespace Stays
variable {ε σ α β : Type u} {R : σ → σ → Prop}

theorem pure [Std.Refl R] (a : α) : Stays R (pure a : EStateM ε σ α) := fun s => Ends.pure_iff.mpr (refl_of R s)

theorem throw [Std.Refl R] (e : ε) : Stays R (throw e : EStateM ε σ α) := fun s => Ends.throw_iff.mpr (refl_of R s)

theorem bind [IsTrans σ R] {x : EStateM ε σ α} {f : α → EStateM ε σ β} (hx : Stays R x)
    (hf : ∀ a, Stays R (f a)) :
    Stays R (x >>= f) := fun s => Ends.bind_iff.mpr <| (hx s).mono
  (fun a t hst => (hf a t).mono (fun _ _ htu => trans_of R hst htu) (fun _ _ htu => trans_of R hst htu))
  (fun _ _ h => h)

end Stays
