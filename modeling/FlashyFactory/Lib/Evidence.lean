import FlashyFactory.Lib.Process
import Mathlib.Data.List.Induction
import Mathlib.Data.Set.Insert

/-! # What a program has evidence of

Between two commands of a program, others may change the world in any way. What remains of an answer is
that it was true of a world that the program has run in. `Prog.Attests` says that the worlds since the start
of a program justify each of its commands, and `Machine.attests` that they do so in every run of the machine,
whatever the other processes and the environment do. -/

namespace Transition
variable {σ : Type u} {ε : Type v} {step : σ → ε → σ} {s : σ} {es : List ε} {P Q : σ → Prop}

/-- A property that a run loses is lost in some step. -/
theorem exists_turn (hs : P s) (h : ¬ P (run step s es)) :
    ∃ before e late, es = before ++ e :: late ∧ P (run step s before) ∧
      ¬ P (step (run step s before) e) := by
  induction es using List.reverseRecOn with
  | nil => exact absurd hs h
  | append_singleton es e ih =>
    by_cases hes : P (run step s es)
    · exact ⟨es, e, [], rfl, hes, by rwa [run_append] at h⟩
    · obtain ⟨before, e', late, rfl, hturn⟩ := ih hes
      exact ⟨before, e', late ++ [e], by simp, hturn⟩

/-- The run has passed through a state with `P`, and `Q` has held since then. -/
def Since (step : σ → ε → σ) (P Q : σ → Prop) (s : σ) (es : List ε) : Prop :=
  ∃ before late, es = before ++ late ∧ P (run step s before) ∧
    ∀ mid tail, late = mid ++ tail → Q (run step s (before ++ mid))

theorem Since.append (h : Since step P Q s es) (es' : List ε)
    (hes' : ∀ mid tail, es' = mid ++ tail → Q (run step s (es ++ mid))) : Since step P Q s (es ++ es') := by
  obtain ⟨before, late, rfl, hP, hQ⟩ := h
  refine ⟨before, late ++ es', List.append_assoc .., hP, fun mid tail hmid => ?_⟩
  rcases List.append_eq_append_iff.mp hmid with ⟨rest, rfl, rfl⟩ | ⟨rest, rfl, rfl⟩
  · simpa using hes' rest tail rfl
  · exact hQ mid rest rfl

theorem Since.now (h : Since step P Q s es) : Q (run step s es) := by
  obtain ⟨before, late, rfl, -, hQ⟩ := h
  exact hQ late [] (List.append_nil _).symm

theorem Since.concat {e : ε} (h : Since step P Q s es) (he : Q (run step s (es ++ [e]))) :
    Since step P Q s (es ++ [e]) := by
  refine h.append [e] fun mid tail hmid => ?_
  rcases List.append_eq_singleton_iff.mp hmid.symm with ⟨rfl, -⟩ | ⟨rfl, -⟩
  · simpa using h.now
  · exact he

/-- A property that held then and does not hold now has been lost while `Q` held. -/
theorem Since.exists_turn (h : Since step P Q s es) (hes : ¬ P (run step s es)) :
    ∃ before e late, es = before ++ e :: late ∧ Q (run step s before) ∧ P (run step s before) ∧
      ¬ P (step (run step s before) e) := by
  obtain ⟨before, late, rfl, hP, hQ⟩ := h
  rw [run_append] at hes
  obtain ⟨mid, e, tail, rfl, hheld, hturn⟩ := Transition.exists_turn hP hes
  rw [← run_append] at hheld hturn
  exact ⟨before ++ mid, e, tail, by simp, hQ mid _ rfl, hheld, hturn⟩

end Transition

namespace Process
/-- There has been a world like this. -/
def Once {σ : Type u} (seen : Set σ) (P : σ → Prop) : Prop := ∃ w ∈ seen, P w

theorem Once.grow {σ : Type u} {seen seen' : Set σ} {P : σ → Prop} (h : Once seen P) (hsub : seen ⊆ seen') :
    Once seen' P := by
  obtain ⟨w, hw, hP⟩ := h
  exact ⟨w, hsub hw, hP⟩

theorem Once.mono {σ : Type u} {seen : Set σ} {P P' : σ → Prop} (h : Once seen P) (hP : ∀ w, P w → P' w) :
    Once seen P' := by
  obtain ⟨w, hw, h⟩ := h
  exact ⟨w, hw, hP w h⟩

namespace Prog
variable {σ : Type a} {κ : Type u} {α : κ → Type v} {β γ : Type w} {ω : Type x}
  {exec : σ → (c : κ) → ω → α c × σ} {ok : Set σ → κ → Prop} {seen : Set σ}

/-- The worlds in `seen` and those that follow justify each command by `ok`, and what the program returns
by `Q`. -/
def Attests (exec : σ → (c : κ) → ω → α c × σ) (ok : Set σ → κ → Prop) :
    Prog κ α β → (β → Set σ → Prop) → Set σ → Prop
  | done b, Q, seen => Q b seen
  | call c next, Q, seen => ∀ seen', seen ⊆ seen' → ∀ w ∈ seen', ok seen' c ∧ ∀ o,
    (next (exec w c o).1).Attests exec ok Q (insert (exec w c o).2 seen')

theorem Attests.mono {Q Q' : β → Set σ → Prop} (hQ : ∀ b seen, Q b seen → Q' b seen) :
    ∀ {x : Prog κ α β} {seen}, x.Attests exec ok Q seen → x.Attests exec ok Q' seen
  | done b, _, h => hQ b _ h
  | call _ _, _, h => fun seen' hsub w hw =>
    ⟨(h seen' hsub w hw).1, fun o => ((h seen' hsub w hw).2 o).mono hQ⟩

/-- What has been seen is not forgotten. -/
theorem Attests.grows {Q : β → Set σ → Prop} :
    ∀ {x : Prog κ α β} {seen}, x.Attests exec ok Q seen →
      x.Attests exec ok (fun b seen' => seen ⊆ seen' ∧ Q b seen') seen
  | done _, _, h => ⟨subset_rfl, h⟩
  | call _ _, _, h => fun seen' hsub w hw => by
    refine ⟨(h seen' hsub w hw).1, fun o => ((h seen' hsub w hw).2 o).grows.mono ?_⟩
    exact fun b later hb => ⟨hsub.trans ((Set.subset_insert _ _).trans hb.1), hb.2⟩

theorem Attests.grow {seen' : Set σ} (hsub : seen ⊆ seen') :
    ∀ {x : Prog κ α β}, x.Attests exec ok (fun _ _ => True) seen →
      x.Attests exec ok (fun _ _ => True) seen'
  | done _, _ => trivial
  | call _ _, h => fun later hlater => h later (hsub.trans hlater)

theorem attests_bind {x : Prog κ α β} {f : β → Prog κ α γ} {Q : γ → Set σ → Prop} :
    (x >>= f).Attests exec ok Q seen ↔ x.Attests exec ok (fun b seen => (f b).Attests exec ok Q seen) seen := by
  induction x generalizing seen with
  | done b => rfl
  | call c next ih =>
    exact forall₂_congr fun _ _ => forall₂_congr fun _ _ => and_congr .rfl (forall_congr' fun _ => ih _)

end Prog

namespace Script
variable {σ : Type a} {κ : Type u} {α : κ → Type v} {β γ δ ε ζ : Type w} {ω : Type x}
  {exec : σ → (c : κ) → ω → α c × σ} {ok : Set σ → κ → Prop} {seen : Set σ}
    {Q Q' : β → Set σ → Prop}

/-- The worlds since the start justify each command, and a result by `Q`. -/
def Attests (exec : σ → (c : κ) → ω → α c × σ) (ok : Set σ → κ → Prop) (x : Script κ α ε β)
    (Q : β → Set σ → Prop) (seen : Set σ) : Prop :=
  x.run.Attests exec ok (fun r seen => ∀ b, r = .ok b → Q b seen) seen

theorem Attests.mono {x : Script κ α ε β} (h : Attests exec ok x Q seen)
    (hQ : ∀ b seen, Q b seen → Q' b seen) : Attests exec ok x Q' seen :=
  Prog.Attests.mono (fun _ _ hr b hb => hQ b _ (hr b hb)) h

theorem Attests.grows {x : Script κ α ε β} (h : Attests exec ok x Q seen) :
    Attests exec ok x (fun b seen' => seen ⊆ seen' ∧ Q b seen') seen :=
  Prog.Attests.mono (fun _ _ hr b hb => ⟨hr.1, hr.2 b hb⟩) (Prog.Attests.grows h)

@[simp] theorem attests_pure {b : β} : Attests exec ok (pure b : Script κ α ε β) Q seen ↔ Q b seen :=
  ⟨fun h => h b rfl, fun h _ hb => Except.ok.inj hb ▸ h⟩

@[simp] theorem attests_throw {e : ε} : Attests exec ok (throw e : Script κ α ε β) Q seen ↔ True :=
  ⟨fun _ => trivial, nofun⟩

theorem attests_bind {x : Script κ α ε γ} {f : γ → Script κ α ε β} :
    Attests exec ok (x >>= f) Q seen ↔
      Attests exec ok x (fun b seen => Attests exec ok (f b) Q seen) seen := by
  refine Iff.trans Prog.attests_bind ⟨Prog.Attests.mono fun r seen h => ?_, Prog.Attests.mono fun r seen h => ?_⟩
  · rintro b rfl
    exact h
  · cases r with
    | ok b => exact h b rfl
    | error e => exact attests_throw.mpr trivial

/-- A script, and then another one that may rely on what the first one has seen. -/
theorem Attests.bind {x : Script κ α ε γ} {f : γ → Script κ α ε β} {P : γ → Set σ → Prop}
    (hx : Attests exec ok x P seen)
    (hf : ∀ c seen', seen ⊆ seen' → P c seen' → Attests exec ok (f c) Q seen') :
    Attests exec ok (x >>= f) Q seen :=
  attests_bind.mpr (hx.grows.mono fun c seen' hc => hf c seen' hc.1 hc.2)

theorem attests_attempt {x : Script κ α ε β} {Q : Except ε β → Set σ → Prop}
    (h : Attests exec ok x (fun b => Q (.ok b)) seen) (hE : ∀ e seen, Q (.error e) seen) :
    Attests exec ok (attempt x) Q seen := by
  refine Prog.attests_bind.mpr (Prog.Attests.mono (fun r seen hr => ?_) h)
  rintro _ ⟨⟩
  cases r with
  | ok b => exact hr b rfl
  | error e => exact hE e seen

theorem attests_mapFailure {f : ζ → ε} {x : Script κ α ζ β} (h : Attests exec ok x Q seen) :
    Attests exec ok (mapFailure f x) Q seen := by
  refine Prog.attests_bind.mpr (Prog.Attests.mono (fun r seen hr => ?_) h)
  cases r with
  | ok b => exact fun _ hb => Except.ok.inj hb ▸ hr b rfl
  | error e => exact nofun

theorem attests_detach {x : Script κ α ε PUnit} (h : Attests exec ok x (fun _ _ => True) seen) :
    (detach x).Attests exec ok (fun _ _ => True) seen :=
  Prog.attests_bind.mpr (Prog.Attests.mono (fun _ _ _ => trivial) h)

theorem attests_issue {c : κ} {answer : α c → Except ε β} (hok : ∀ seen', seen ⊆ seen' → ok seen' c)
    (h : ∀ seen', seen ⊆ seen' → ∀ w ∈ seen', ∀ o b, answer (exec w c o).1 = .ok b →
      Q b (insert (exec w c o).2 seen')) : Attests exec ok (issue c answer) Q seen :=
  fun seen' hsub w hw => ⟨hok seen' hsub, fun o b hb => h seen' hsub w hw o b hb⟩

/-- A loop, each round of which may rely on what was known before the loop. -/
theorem attests_forM {f : δ → Script κ α ε PUnit} :
    ∀ {xs : List δ} {seen}, (∀ x ∈ xs, ∀ seen', seen ⊆ seen' →
      Attests exec ok (f x) (fun _ _ => True) seen') →
      Attests exec ok (xs.forM f) (fun _ _ => True) seen
  | [], _, _ => attests_pure.mpr trivial
  | x :: _, seen, h => (h x List.mem_cons_self seen subset_rfl).bind fun _ _ hsub _ =>
    attests_forM fun y hy later hlater => h y (List.mem_cons_of_mem _ hy) later (hsub.trans hlater)

end Script

/-! ## Runs of a machine -/

namespace Machine
variable {σ : Type a} {κ : Type u} {α : κ → Type v} {ι : Type b} {ρ : Type c} {ω : Type d} {η : Type e}
  [DecidableEq ι] {𝓜 : Machine σ κ α ι ρ ω η} {s : State σ κ α ι ρ} {es : List (Event ι ρ ω η)}

/-- The worlds that a run passes through. -/
def worlds (𝓜 : Machine σ κ α ι ρ ω η) (s : State σ κ α ι ρ) (es : List (Event ι ρ ω η)) : Set σ :=
  {w | ∃ before late, es = before ++ late ∧ w = (Transition.run 𝓜.step s before).world}

theorem worlds_nil : 𝓜.worlds s [] = {s.world} := by
  ext w
  constructor
  · rintro ⟨before, late, h, rfl⟩
    obtain ⟨rfl, rfl⟩ := List.append_eq_nil_iff.mp h.symm
    rfl
  · rintro rfl
    exact ⟨[], [], rfl, rfl⟩

theorem worlds_concat {e : Event ι ρ ω η} :
    𝓜.worlds s (es ++ [e]) = insert (Transition.run 𝓜.step s (es ++ [e])).world (𝓜.worlds s es) := by
  ext w
  constructor
  · rintro ⟨before, late, h, rfl⟩
    rcases List.eq_nil_or_concat late with rfl | ⟨late, e', rfl⟩
    · rw [List.append_nil] at h
      exact .inl (by rw [h])
    · rw [List.concat_eq_append, ← List.append_assoc] at h
      exact .inr ⟨before, late, (List.append_inj_left' h rfl), rfl⟩
  · rintro (rfl | ⟨before, late, rfl, rfl⟩)
    · exact ⟨_, [], (List.append_nil _).symm, rfl⟩
    · exact ⟨before, late ++ [e], List.append_assoc .., rfl⟩

theorem world_mem_worlds : (Transition.run 𝓜.step s es).world ∈ 𝓜.worlds s es :=
  ⟨es, [], (List.append_nil _).symm, rfl⟩

/-- The process is alive all along the run. -/
def Alive (𝓜 : Machine σ κ α ι ρ ω η) (p : ι) (s : State σ κ α ι ρ)
    (es : List (Event ι ρ ω η)) : Prop :=
  ∀ before late, es = before ++ late → (Transition.run 𝓜.step s before).procs p ≠ none

theorem Alive.of_append {p : ι} {es' : List (Event ι ρ ω η)} (h : Alive 𝓜 p s (es ++ es')) :
    Alive 𝓜 p s es := by
  rintro before late rfl
  exact h before (late ++ es') (List.append_assoc ..)

section
variable {p : ι} {r r' : ρ} {x : Prog κ α Unit} {ok : Set σ → κ → Prop} {seen : Set σ}

/-- The process is alive, and what it still does is justified by the worlds in `seen`. -/
def Attested (𝓜 : Machine σ κ α ι ρ ω η) (ok : Set σ → κ → Prop) (p : ι) (r : ρ) (seen : Set σ)
    (s : State σ κ α ι ρ) : Prop :=
  ∃ x, s.procs p = some (r, x) ∧ x.Attests (fun w => 𝓜.exec w p) ok (fun _ _ => True) seen

omit [DecidableEq ι] in
theorem Attested.grow {seen' : Set σ} {s' : State σ κ α ι ρ} (h : Attested 𝓜 ok p r seen s)
    (hsub : seen ⊆ seen') (hp : s'.procs p = s.procs p) : Attested 𝓜 ok p r seen' s' := by
  obtain ⟨x, hx, hattests⟩ := h
  exact ⟨x, hp.trans hx, hattests.grow hsub⟩

theorem Attested.step (h : Attested 𝓜 ok p r seen s) (hw : s.world ∈ seen) {e : Event ι ρ ω η}
    (he : (𝓜.step s e).procs p ≠ none) :
    Attested 𝓜 ok p r (insert (𝓜.step s e).world seen) (𝓜.step s e) := by
  have hother : (𝓜.step s e).procs p = s.procs p →
      Attested 𝓜 ok p r (insert (𝓜.step s e).world seen) (𝓜.step s e) := h.grow (Set.subset_insert _ _)
  cases e with
  | act q choice =>
    by_cases hq : q = p
    · subst hq
      obtain ⟨x, hx, hattests⟩ := h
      cases x with
      | done b => exact absurd (by simp [Machine.step, hx]) he
      | call c next =>
        refine ⟨next (𝓜.exec s.world q c choice).1, by simp [Machine.step, hx], ?_⟩
        simpa only [Machine.step, hx] using (hattests _ subset_rfl _ hw).2 choice
    · refine hother ?_
      simp only [Machine.step]
      split <;> simp [Function.update_of_ne (Ne.symm hq)]
  | crash q =>
    refine hother ?_
    have hq : p ≠ q := by
      rintro rfl
      exact he (by simp [Machine.step])
    simp [Machine.step, Function.update_of_ne hq]
  | start q r =>
    refine hother ?_
    simp only [Machine.step]
    split
    · next hstart =>
      -- a process that is alive is not started again
      have hq : p ≠ q := by
        rintro rfl
        obtain ⟨x, hx, -⟩ := h
        simp [hx] at hstart
      simp [Function.update_of_ne hq]
    · rfl
  | env e => exact hother rfl

theorem attested_run (h : Attested 𝓜 ok p r {s.world} s) (hes : Alive 𝓜 p s es) :
    Attested 𝓜 ok p r (𝓜.worlds s es) (Transition.run 𝓜.step s es) := by
  induction es using List.reverseRecOn with
  | nil =>
    rw [worlds_nil]
    exact h
  | append_singleton es e ih =>
    have halive := hes (es ++ [e]) [] (List.append_nil _).symm
    rw [worlds_concat]
    rw [Transition.run_append] at halive ⊢
    exact (ih hes.of_append).step world_mem_worlds halive

/-- The process `p` is started in the role `r` after `before`, and stays alive along `late`. -/
structure Lives (𝓜 : Machine σ κ α ι ρ ω η) (s : State σ κ α ι ρ) (p : ι) (r : ρ)
    (before late : List (Event ι ρ ω η)) : Prop where
  fresh : (Transition.run 𝓜.step s before).procs p = none
  may : 𝓜.mayStart (Transition.run 𝓜.step s before).world r = true
  alive : Alive 𝓜 p (Transition.run 𝓜.step s (before ++ [.start p r])) late

/-- The worlds since the start of the process. -/
def Lives.worlds {before late : List (Event ι ρ ω η)} (_ : Lives 𝓜 s p r before late) : Set σ :=
  𝓜.worlds (Transition.run 𝓜.step s (before ++ [.start p r])) late

theorem Lives.started {before late : List (Event ι ρ ω η)} (h : Lives 𝓜 s p r before late) :
    (Transition.run 𝓜.step s (before ++ [.start p r])).procs p = some (r, 𝓜.program r) := by
  simp [Transition.run_append, Machine.step, h.fresh, h.may]

theorem Lives.of_append {before mid late : List (Event ι ρ ω η)} (h : Lives 𝓜 s p r before (mid ++ late)) :
    Lives 𝓜 s p r before mid := ⟨h.fresh, h.may, h.alive.of_append⟩

theorem Lives.attested {before late : List (Event ι ρ ω η)} (h : Lives 𝓜 s p r before late)
    (hprogram : ∀ seen, (𝓜.program r).Attests (fun w => 𝓜.exec w p) ok (fun _ _ => True) seen) :
    Attested 𝓜 ok p r h.worlds (Transition.run 𝓜.step s (before ++ .start p r :: late)) := by
  rw [List.append_cons, Transition.run_append]
  exact attested_run ⟨_, h.started, hprogram _⟩ h.alive

/-- **What a process issues is justified** by the worlds that the run has passed through since its start. -/
theorem Lives.attests {before late : List (Event ι ρ ω η)} (h : Lives 𝓜 s p r before late)
    (hprogram : ∀ seen, (𝓜.program r).Attests (fun w => 𝓜.exec w p) ok (fun _ _ => True) seen)
    (hat : (Transition.run 𝓜.step s (before ++ .start p r :: late)).procs p = some (r', .call c next)) :
    r' = r ∧ ok h.worlds c := by
  obtain ⟨x, hx, hattests⟩ := h.attested hprogram
  have hnow : (Transition.run 𝓜.step s (before ++ .start p r :: late)).world ∈ h.worlds := by
    rw [List.append_cons, Transition.run_append]
    exact world_mem_worlds
  rw [hx] at hat
  cases hat
  exact ⟨rfl, (hattests _ subset_rfl _ hnow).1⟩

/-- What has been seen since the start of a process was the world after a part of the run. -/
theorem Lives.of_mem {before late : List (Event ι ρ ω η)} (h : Lives 𝓜 s p r before late) {w : σ}
    (hw : w ∈ h.worlds) : ∃ mid tail, late = mid ++ tail ∧
      w = (Transition.run 𝓜.step s (before ++ .start p r :: mid)).world := by
  obtain ⟨mid, tail, rfl, rfl⟩ := hw
  exact ⟨mid, tail, rfl, by
    rw [List.append_cons before (.start p r) mid]
    exact congrArg State.world Transition.run_append.symm⟩

theorem step_alive {e : Event ι ρ ω η} (h : (𝓜.step s e).procs p = some (r, x)) :
    (∃ x', s.procs p = some (r, x')) ∨ s.procs p = none ∧ e = .start p r ∧ 𝓜.mayStart s.world r = true := by
  cases e with
  | act q choice =>
    by_cases hq : p = q
    · subst hq
      cases hp : s.procs p with
      | none => simp [Machine.step, hp] at h
      | some rx =>
        obtain ⟨r', x'⟩ := rx
        cases x' with
        | done b => simp [Machine.step, hp] at h
        | call c next =>
          simp only [Machine.step, hp, Function.update_self, Option.some.injEq, Prod.mk.injEq] at h
          exact .inl ⟨_, by rw [h.1]⟩
    · refine .inl ⟨x, ?_⟩
      rw [← h]
      simp only [Machine.step]
      split <;> simp [Function.update_of_ne hq]
  | crash q =>
    by_cases hq : p = q
    · subst hq
      simp [Machine.step] at h
    · exact .inl ⟨x, by simpa [Machine.step, Function.update_of_ne hq] using h⟩
  | start q r' =>
    simp only [Machine.step] at h
    split at h
    · next hstart =>
      simp only [Bool.and_eq_true, Option.isNone_iff_eq_none] at hstart
      by_cases hq : p = q
      · subst hq
        simp only [Function.update_self, Option.some.injEq, Prod.mk.injEq] at h
        obtain ⟨rfl, -⟩ := h
        exact .inr ⟨hstart.1, rfl, hstart.2⟩
      · exact .inl ⟨x, by simpa [Function.update_of_ne hq] using h⟩
    · exact .inl ⟨x, h⟩
  | env e => exact .inl ⟨x, h⟩

/-- A process that is alive has been started in the run, and has lived since. -/
theorem exists_lives (hs : s.procs p = none) (hp : (Transition.run 𝓜.step s es).procs p = some (r, x)) :
    ∃ before late, es = before ++ .start p r :: late ∧ Lives 𝓜 s p r before late := by
  induction es using List.reverseRecOn generalizing x with
  | nil => exact absurd (hs.symm.trans hp) nofun
  | append_singleton es e ih =>
    have hnow := hp
    rw [Transition.run_append] at hp
    rcases step_alive hp with ⟨x', hx'⟩ | ⟨hfresh, rfl, hmay⟩
    · obtain ⟨before, late, rfl, hlives⟩ := ih hx'
      refine ⟨before, late ++ [e], by simp, hlives.fresh, hlives.may, fun mid tail hmid => ?_⟩
      rcases List.eq_nil_or_concat tail with rfl | ⟨tail, e', rfl⟩
      · rw [List.append_nil] at hmid
        rw [← hmid, ← Transition.run_append, List.append_assoc, List.singleton_append, ← List.cons_append,
          ← List.append_assoc, hnow]
        exact nofun
      · rw [List.concat_eq_append, ← List.append_assoc] at hmid
        exact hlives.alive mid tail (List.append_inj_left' hmid rfl)
    · refine ⟨es, [], rfl, hfresh, hmay, fun mid tail hmid => ?_⟩
      obtain ⟨rfl, rfl⟩ := List.append_eq_nil_iff.mp hmid.symm
      rw [Transition.run_nil, hnow]
      exact nofun

end

end Machine

end Process
