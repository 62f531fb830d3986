import Mathlib.Data.List.Forall2

/-! # What the success of a computation that may fail establishes

Each rule is an equivalence, so that `simp` takes a successful program apart along its text. -/

universe u v w

namespace Except
variable {ε : Type u} {α β : Type v}

theorem ok_bind {f : α → Except ε β} : (.ok a : Except ε α) >>= f = f a := rfl

@[simp] theorem bind_eq_ok {x : Except ε α} {f : α → Except ε β} :
    x >>= f = .ok b ↔ ∃ a, x = .ok a ∧ f a = .ok b := by
  cases x with
  | error e => exact ⟨nofun, nofun⟩
  | ok a => exact ⟨fun h => ⟨a, rfl, h⟩, fun ⟨_, ha, h⟩ => by cases ha; exact h⟩

theorem bind_eq_error {x : Except ε α} {f : α → Except ε β} :
    x >>= f = .error e ↔ x = .error e ∨ ∃ a, x = .ok a ∧ f a = .error e := by
  cases x with
  | error e' => exact ⟨fun h => .inl (congrArg _ (Except.error.inj h)), fun h => by
      rcases h with h | ⟨_, h, -⟩
      · exact congrArg _ (Except.error.inj h)
      · cases h⟩
  | ok a => exact ⟨fun h => .inr ⟨a, rfl, h⟩, fun h => by
      rcases h with h | ⟨_, ha, h⟩
      · cases h
      · cases ha
        exact h⟩

@[simp] theorem pure_eq_ok {a b : α} : (pure a : Except ε α) = .ok b ↔ a = b :=
  Except.ok.injEq a b ▸ .rfl

@[simp] theorem map_eq_ok {x : Except ε α} {f : α → β} : x.map f = .ok b ↔ ∃ a, x = .ok a ∧ f a = b := by
  cases x <;> simp [Except.map]

@[simp] theorem fmap_eq_ok {x : Except ε α} {f : α → β} : f <$> x = .ok b ↔ ∃ a, x = .ok a ∧ f a = b :=
  map_eq_ok

@[simp] theorem mapError_eq_ok {ε' : Type u} {x : Except ε α} {f : ε → ε'} :
    x.mapError f = .ok a ↔ x = .ok a := by
  cases x <;> simp [Except.mapError]

theorem toOption_any {x : Except ε α} {p : α → Bool} :
    x.toOption.any p = true ↔ ∃ a, x = .ok a ∧ p a = true := by
  cases x <;> simp [Except.toOption]

theorem map_eq_bind {x : Except ε α} {f : α → β} : x.map f = x >>= fun a => .ok (f a) := by
  cases x <;> rfl

theorem map_bind {γ : Type v} {x : Except ε α} {f : α → Except ε β} {g : β → γ} :
    (x >>= f).map g = x >>= fun a => (f a).map g := by
  cases x <;> rfl

theorem mapM_eq_ok {f : α → Except ε β} {xs : List α} {ys : List β} :
    xs.mapM f = .ok ys ↔ List.Forall₂ (fun x y => f x = .ok y) xs ys := by
  induction xs generalizing ys with
  | nil =>
    rw [List.mapM_nil, pure_eq_ok, List.forall₂_nil_left_iff]
    exact eq_comm
  | cons x xs ih =>
    simp only [List.mapM_cons, bind_eq_ok, pure_eq_ok, ih, List.forall₂_cons_left_iff]
    exact ⟨fun ⟨y, hy, ys, hys, h⟩ => ⟨y, ys, hy, hys, h.symm⟩, fun ⟨y, ys, hy, hys, h⟩ =>
      ⟨y, hy, ys, hys, h.symm⟩⟩

section
variable {f : α → Except ε β} {xs : List α} {ys : List β}

theorem mapM_forward (h : List.Forall₂ (fun x y => f x = .ok y) xs ys) (hx : x ∈ xs) :
    ∃ y ∈ ys, f x = .ok y := by
  induction h with
  | nil => cases hx
  | cons hone _ ih =>
    rcases List.mem_cons.mp hx with rfl | hx
    · exact ⟨_, List.mem_cons_self, hone⟩
    · obtain ⟨y, hy, hf⟩ := ih hx
      exact ⟨y, List.mem_cons_of_mem _ hy, hf⟩

theorem mapM_backward (h : List.Forall₂ (fun x y => f x = .ok y) xs ys) (hy : y ∈ ys) :
    ∃ x ∈ xs, f x = .ok y := by
  induction h with
  | nil => cases hy
  | cons hone _ ih =>
    rcases List.mem_cons.mp hy with rfl | hy
    · exact ⟨_, List.mem_cons_self, hone⟩
    · obtain ⟨x, hx, hf⟩ := ih hy
      exact ⟨x, List.mem_cons_of_mem _ hx, hf⟩

theorem mapM_total (h : ∀ x ∈ xs, ∃ y, f x = .ok y) : ∃ ys, List.Forall₂ (fun x y => f x = .ok y) xs ys := by
  induction xs with
  | nil => exact ⟨[], .nil⟩
  | cons x xs ih =>
    obtain ⟨⟨y, hy⟩, h⟩ := List.forall_mem_cons.mp h
    obtain ⟨ys, hys⟩ := ih h
    exact ⟨y :: ys, .cons hy hys⟩

end

/-! ## Programs that compute a result -/

section
variable {ε : Type v}

/-- A relation between programs of a monad and results, that the combination of programs respects. -/
structure Simulates {m : Type u → Type w} [Monad m] (R : ∀ {β : Type u}, m β → Except ε β → Prop) :
    Prop where
  pure : ∀ {β : Type u} (b : β), R (pure b) (.ok b)
  bind : ∀ {β γ : Type u} {x : m β} {r : Except ε β} {f : β → m γ} {g : β → Except ε γ},
    R x r → (∀ b, R (f b) (g b)) → R (x >>= f) (r >>= g)

theorem Simulates.foldlM {m : Type u → Type w} [Monad m] {R : ∀ {β : Type u}, m β → Except ε β → Prop}
    (H : Simulates (m := m) R) {β γ : Type u} {f : γ → β → m γ} {g : γ → β → Except ε γ}
    (h : ∀ c b, R (f c b) (g c b)) {bs : List β} {c : γ} : R (bs.foldlM f c) (bs.foldlM g c) := by
  induction bs generalizing c with
  | nil => exact H.pure c
  | cons b bs ih => exact H.bind (h c b) fun _ => ih

theorem Simulates.mapM {m : Type u → Type w} [Monad m] [LawfulMonad m]
    {R : ∀ {β : Type u}, m β → Except ε β → Prop} (H : Simulates (m := m) R)
    {β γ : Type u} {f : β → m γ}
    {g : β → Except ε γ} (h : ∀ b, R (f b) (g b)) {bs : List β} : R (bs.mapM f) (bs.mapM g) := by
  induction bs with
  | nil =>
    rw [List.mapM_nil, List.mapM_nil]
    exact H.pure []
  | cons b bs ih =>
    rw [List.mapM_cons, List.mapM_cons]
    exact H.bind (h b) fun _ => H.bind ih fun _ => H.pure _

end
end Except
