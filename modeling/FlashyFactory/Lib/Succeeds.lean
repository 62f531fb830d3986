import Mathlib.Logic.Basic

/-! # Total correctness of programs that may fail

`Succeeds x s Q` says that `x`, started in `s`, returns a value in a state as `Q` requires. Each
rule is an equivalence, so the condition under which a program succeeds is computed from its
text. -/

universe u

/-- Started in `s`, the program returns, and what it returns satisfies `Q`. -/
def Succeeds {ε σ α : Type u} (x : EStateM ε σ α) (s : σ) (Q : α → σ → Prop) : Prop :=
  ∃ a s', x s = .ok a s' ∧ Q a s'

namespace Succeeds
variable {ε σ α β : Type u} {s : σ} {Q : α → σ → Prop}

theorem mono {x : EStateM ε σ α} {R : α → σ → Prop} (h : Succeeds x s Q) (hQ : ∀ a s, Q a s → R a s) :
    Succeeds x s R := by
  obtain ⟨a, s', hx, ha⟩ := h
  exact ⟨a, s', hx, hQ a s' ha⟩

theorem congr {x : EStateM ε σ α} {R : α → σ → Prop} (h : ∀ a s, Q a s ↔ R a s) :
    Succeeds x s Q ↔ Succeeds x s R :=
  ⟨fun hx => hx.mono fun a s => (h a s).mp, fun hx => hx.mono fun a s => (h a s).mpr⟩

theorem ok_iff {x : EStateM ε σ α} (h : x s = .ok a t) : Succeeds x s Q ↔ Q a t := by
  refine ⟨fun ⟨b, u, hx, hQ⟩ => ?_, fun hQ => ⟨a, t, h, hQ⟩⟩
  cases h.symm.trans hx
  exact hQ

theorem error_iff {x : EStateM ε σ α} (h : x s = .error e t) : Succeeds x s Q ↔ False := by
  refine ⟨fun ⟨b, u, hx, _⟩ => ?_, False.elim⟩
  cases h.symm.trans hx

@[simp] theorem false_iff {x : EStateM ε σ α} : Succeeds x s (fun _ _ => False) ↔ False :=
  ⟨fun ⟨_, _, _, h⟩ => h, False.elim⟩

@[simp] theorem pure_iff {a : α} : Succeeds (pure a : EStateM ε σ α) s Q ↔ Q a s := ok_iff rfl

@[simp] theorem throw_iff {e : ε} : Succeeds (throw e : EStateM ε σ α) s Q ↔ False := error_iff rfl

@[simp] theorem bind_iff {x : EStateM ε σ α} {f : α → EStateM ε σ β} {Q : β → σ → Prop} :
    Succeeds (x >>= f) s Q ↔ Succeeds x s fun a s => Succeeds (f a) s Q := by
  cases hx : x s with
  | ok a s' =>
    have hbind : (x >>= f) s = f a s' := by
      change EStateM.bind x f s = _
      simp [EStateM.bind, hx]
    rw [ok_iff hx, Succeeds, hbind]
    rfl
  | error e s' =>
    have hbind : (x >>= f) s = .error e s' := by
      change EStateM.bind x f s = _
      simp [EStateM.bind, hx]
    rw [error_iff hx, error_iff hbind]

@[simp] theorem map_iff {x : EStateM ε σ α} {f : α → β} {Q : β → σ → Prop} :
    Succeeds (f <$> x) s Q ↔ Succeeds x s fun a s => Q (f a) s := by
  cases hx : x s with
  | ok a s' =>
    have hmap : (f <$> x) s = .ok (f a) s' := by
      change EStateM.map f x s = _
      simp [EStateM.map, hx]
    rw [ok_iff hx, ok_iff hmap]
  | error e s' =>
    have hmap : (f <$> x) s = .error e s' := by
      change EStateM.map f x s = _
      simp [EStateM.map, hx]
    rw [error_iff hx, error_iff hmap]

@[simp] theorem get_iff {Q : σ → σ → Prop} : Succeeds (get : EStateM ε σ σ) s Q ↔ Q s s := ok_iff rfl

end Succeeds
