import Mathlib.Logic.Relation
import Mathlib.Order.Nat
import Mathlib.Tactic.Push

/-! # Runs of a transition function

A system given by a total step function `step : σ → ε → σ`. `run` iterates it over a list of
events, and `Meets C` says that every event of the list satisfies `C` in the state it happens in.
The rules at the end lift what one step keeps, or what one step simulates, to runs. -/

namespace Transition
variable {σ : Type u} {ε : Type v} {τ : Type w}

/-- The state after the events `es`. -/
def run (step : σ → ε → σ) (s : σ) (es : List ε) : σ := es.foldl step s

variable {step : σ → ε → σ}

@[simp] theorem run_nil : run step s [] = s := rfl

@[simp] theorem run_cons : run step s (e :: es) = run step (step s e) es := rfl

theorem run_append : run step s (es ++ es') = run step (run step s es) es' := List.foldl_append

/-- The state at time `t` of the infinite run along `events`. -/
def stateAt (step : σ → ε → σ) (s : σ) (events : ℕ → ε) : ℕ → σ
  | 0 => s
  | t + 1 => step (stateAt step s events t) (events t)

/-- The `k` events from time `t` on. -/
def window (events : ℕ → ε) (t k : ℕ) : List ε := (List.range k).map fun u => events (t + u)

theorem window_succ {events : ℕ → ε} :
    window events t (k + 1) = window events t k ++ [events (t + k)] := by
  simp [window, List.range_succ]

theorem stateAt_add {events : ℕ → ε} : stateAt step s events (t + k) =
    run step (stateAt step s events t) (window events t k) := by
  induction k with
  | zero => rfl
  | succ k ih =>
    rw [window_succ, run_append, ← ih]
    rfl

/-- The run from time `t` on. -/
theorem stateAt_shift {events : ℕ → ε} : stateAt step s events (t + k) =
    stateAt step (stateAt step s events t) (fun u => events (t + u)) k := by
  induction k with
  | zero => rfl
  | succ k ih =>
    rw [← Nat.add_assoc]
    simp only [stateAt, ih]

/-- The events `es`, and then `events`. -/
def prepend : List ε → (ℕ → ε) → ℕ → ε
  | [], events, t => events t
  | e :: _, _, 0 => e
  | _ :: es, events, t + 1 => prepend es events t

theorem prepend_add {events : ℕ → ε} : prepend es events (es.length + t) = events t := by
  induction es with
  | nil => rw [List.length_nil, Nat.zero_add, prepend]
  | cons e es ih =>
    rw [List.length_cons, Nat.add_right_comm]
    exact ih

theorem stateAt_prepend {events : ℕ → ε} : stateAt step s (prepend es events) (es.length + t) =
    stateAt step (run step s es) events t := by
  induction es generalizing s with
  | nil =>
    rw [List.length_nil, Nat.zero_add, run_nil]
    rfl
  | cons e es ih =>
    have hshift : (fun u => prepend (e :: es) events (1 + u)) = prepend es events := by
      funext u
      rw [Nat.add_comm]
      rfl
    rw [List.length_cons, Nat.add_comm es.length, Nat.add_assoc, stateAt_shift, hshift]
    exact ih

/-- What brings a measure down that never rises again happens finitely often. -/
theorem finitely_often {f : ℕ → ℕ} {P : ℕ → Prop} (hle : ∀ t ≥ T, f (t + 1) ≤ f t)
    (hlt : ∀ t ≥ T, P t → f (t + 1) < f t) : ∃ T', ∀ t ≥ T', ¬ P t := by
  have hantitone : ∀ u ≥ T, ∀ t ≥ u, f t ≤ f u := by
    intro u hu t ht
    induction t, ht using Nat.le_induction with
    | base => exact le_rfl
    | succ t ht ih => exact (hle t (hu.trans ht)).trans ih
  have hbelow : ∀ m, ∀ u ≥ T, f u ≤ m → ∃ T', ∀ t ≥ T', ¬ P t := by
    intro m
    induction m with
    | zero =>
      intro u hu hm
      refine ⟨u, fun t ht hP => ?_⟩
      have hdown := hlt t (hu.trans ht) hP
      have hstill := hantitone u hu t ht
      omega
    | succ m ih =>
      intro u hu hm
      by_cases hquiet : ∀ t ≥ u, ¬ P t
      · exact ⟨u, hquiet⟩
      · push Not at hquiet
        obtain ⟨t, ht, hP⟩ := hquiet
        have hdown := hlt t (hu.trans ht) hP
        have hstill := hantitone u hu t ht
        exact ih (t + 1) (hu.trans (ht.trans (Nat.le_succ t))) (by omega)
  exact hbelow (f T) T le_rfl le_rfl

/-- A run whose events repeat, and that is back in its first state after one period, repeats. -/
theorem stateAt_mod {events : ℕ → ε} (hevents : ∀ t, events (t + p) = events t)
    (hback : stateAt step s events p = s) :
    ∀ t, stateAt step s events t = stateAt step s events (t % p) := by
  have hshift : ∀ t, stateAt step s events (t + p) = stateAt step s events t := by
    intro t
    induction t with
    | zero => rwa [Nat.zero_add]
    | succ t ih =>
      rw [Nat.add_right_comm]
      simp only [stateAt, ih, hevents]
  intro t
  induction t using Nat.strongRecOn with
  | ind t ih =>
    rcases Nat.lt_or_ge t p with hlt | hge
    · rw [Nat.mod_eq_of_lt hlt]
    · rcases Nat.eq_zero_or_pos p with rfl | hp
      · rw [Nat.mod_zero]
      · rw [Nat.mod_eq_sub_mod hge, ← ih (t - p) (Nat.sub_lt (Nat.lt_of_lt_of_le hp hge) hp), ← hshift (t - p),
          Nat.sub_add_cancel hge]

/-- Every event of `es` satisfies `C` in the state it happens in. -/
def Meets (step : σ → ε → σ) (C : σ → ε → Prop) : σ → List ε → Prop
  | _, [] => True
  | s, e :: es => C s e ∧ Meets step C (step s e) es

instance Meets.decidable {C : σ → ε → Prop} [∀ s e, Decidable (C s e)] :
    ∀ s es, Decidable (Meets step C s es)
  | _, [] => instDecidableTrue
  | s, e :: es =>
    have : Decidable (Meets step C (step s e) es) := Meets.decidable (step s e) es
    inferInstanceAs (Decidable (C s e ∧ Meets step C (step s e) es))

theorem Meets.of_forall {C : σ → ε → Prop} (h : ∀ s e, C s e) : ∀ s es, Meets step C s es
  | _, [] => trivial
  | s, e :: es => ⟨h s e, of_forall h (step s e) es⟩

/-- A condition on the events alone. -/
theorem Meets.of_mem {C : ε → Prop} :
    ∀ {s : σ} {es}, (∀ e ∈ es, C e) → Meets step (fun _ e => C e) s es
  | _, [], _ => trivial
  | _, _ :: _, h => ⟨h _ List.mem_cons_self, of_mem fun e he => h e (List.mem_cons_of_mem _ he)⟩

theorem Meets.mono {C D : σ → ε → Prop} (hCD : ∀ s e, C s e → D s e) :
    ∀ {s es}, Meets step C s es → Meets step D s es
  | _, [], _ => trivial
  | _, _ :: _, ⟨h, h'⟩ => ⟨hCD _ _ h, h'.mono hCD⟩

theorem Meets.append {C : σ → ε → Prop} :
    ∀ {s es es'}, Meets step C s (es ++ es') ↔ Meets step C s es ∧ Meets step C (run step s es) es'
  | _, [], _ => by simp [Meets]
  | s, e :: es, es' => by
    have ih : Meets step C (step s e) (es ++ es') ↔ _ := Meets.append
    simp only [List.cons_append, Meets, run_cons, ih, and_assoc]

theorem Meets.at {C : σ → ε → Prop} (h : Meets step C s (es ++ e :: es')) : C (run step s es) e :=
  (append.mp h).2.1

/-- The events of a window of an infinite run. -/
theorem Meets.window {C : σ → ε → Prop} {events : ℕ → ε}
    (h : ∀ u < k, C (stateAt step s events (t + u)) (events (t + u))) :
    Meets step C (stateAt step s events t) (Transition.window events t k) := by
  induction k with
  | zero => trivial
  | succ k ih =>
    rw [window_succ, append, ← stateAt_add]
    exact ⟨ih fun u hu => h u (Nat.lt_succ_of_lt hu), h k (Nat.lt_succ_self k), trivial⟩

/-- A run that does not meet `C` has an event at which it fails. -/
theorem exists_of_not_meets {C : σ → ε → Prop} :
    ∀ {s : σ} {es}, ¬ Meets step C s es →
      ∃ before e late, es = before ++ e :: late ∧ ¬ C (run step s before) e
  | _, [], h => absurd trivial h
  | s, e :: es, h => by
    by_cases he : C s e
    · obtain ⟨before, e', late, rfl, h'⟩ := exists_of_not_meets fun hes => h ⟨he, hes⟩
      exact ⟨e :: before, e', late, rfl, h'⟩
    · exact ⟨[], e, es, rfl, he⟩

theorem meets_iff {C : σ → ε → Prop} :
    Meets step C s es ↔
      ∀ before e late, es = before ++ e :: late → C (run step s before) e := by
  constructor
  · rintro h before e late rfl
    exact h.at
  · intro h
    by_contra hnot
    obtain ⟨before, e, late, hes, h'⟩ := exists_of_not_meets hnot
    exact h' (h before e late hes)

/-- What every step allowed by `C` keeps, a run that meets `C` keeps. -/
theorem Meets.invariant {C : σ → ε → Prop} {P : σ → Prop}
    (hstep : ∀ s e, P s → C s e → P (step s e)) :
    ∀ {s es}, Meets step C s es → P s → P (run step s es)
  | _, [], _, hs => hs
  | _, _ :: _, ⟨h, h'⟩, hs => h'.invariant hstep (hstep _ _ hs h)

/-- If `C` says exactly which steps keep `P`, then `P` holds throughout a run exactly if the run
meets `C`. -/
theorem invariant_iff_meets {C : σ → ε → Prop} {P : σ → Prop}
    (hstep : ∀ s e, P s → (P (step s e) ↔ C s e)) (hs : P s) :
    (∀ before late, es = before ++ late → P (run step s before)) ↔ Meets step C s es := by
  constructor
  · intro h
    refine meets_iff.mpr ?_
    rintro before e late rfl
    refine (hstep _ e (h before (e :: late) rfl)).mp ?_
    simpa [run_append] using h (before ++ [e]) late (by simp)
  · rintro h before late rfl
    exact (Meets.append.mp h).1.invariant (fun s e hs hC => (hstep s e hs).mpr hC) hs

theorem run_invariant {P : σ → Prop} (hstep : ∀ s e, P s → P (step s e)) (hs : P s) (es : List ε) :
    P (run step s es) :=
  (Meets.of_forall (C := fun _ _ => True) (fun _ _ => trivial) s es).invariant
    (fun s e h _ => hstep s e h) hs

/-- A preorder every allowed step climbs. -/
theorem Meets.climbs {C : σ → ε → Prop} {R : σ → σ → Prop} (refl : ∀ s, R s s)
    (trans : ∀ {s t u}, R s t → R t u → R s u) (hstep : ∀ s e, C s e → R s (step s e)) :
    ∀ {s es}, Meets step C s es → R s (run step s es)
  | s, [], _ => refl s
  | _, _ :: _, ⟨h, h'⟩ => trans (hstep _ _ h) (h'.climbs refl trans hstep)

/-- **Simulation.** If, in states whose view satisfies `I`, every allowed step is matched by
steps of `R` between the views, and `R` keeps `I`, then so is every allowed run. -/
theorem Meets.simulates {C : σ → ε → Prop} {view : σ → τ} {R : τ → τ → Prop} {I : τ → Prop}
    (hI : ∀ t u, I t → R t u → I u)
    (hstep : ∀ s e, I (view s) → C s e → Relation.ReflTransGen R (view s) (view (step s e))) :
    ∀ {s es}, Meets step C s es → I (view s) →
      Relation.ReflTransGen R (view s) (view (run step s es))
  | _, [], _, _ => .refl
  | s, e :: es, ⟨h, h'⟩, hs => by
    have hone := hstep s e hs h
    have hnext : I (view (step s e)) := by
      refine Relation.ReflTransGen.head_induction_on (motive := fun t _ => I t → I (view (step s e)))
        hone id ?_ hs
      exact fun htu _ ih ht => ih (hI _ _ ht htu)
    exact hone.trans (h'.simulates hI hstep hnext)

end Transition
