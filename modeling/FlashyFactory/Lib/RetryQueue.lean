import Mathlib.Logic.Function.Basic
import Mathlib.Logic.Relation
import Mathlib.Tactic.Ring
import Mathlib.Tactic.Linarith

/-! # Work queues with bounded retries

A queue of jobs, each worked on by a sequence of attempts. An attempt that fails may put its job
back, at most `limit` times in a row; a job that succeeded may be resumed; an attempt may be
asked to cancel while it runs. `Step` is the whole of what a queue can do.

Three invariants are proved of every step and hence of every run:

* `Lockstep`: a job is active exactly while one attempt of it runs;
* `Chain`: retries form a chain through the attempts of one job, of height at most `limit`;
* `Budget`: a job gets at most `limit + 1` attempts for each time it was submitted or resumed.

`CancelKept` and `Exclusive` hold along the runs whose steps honour a cancellation request and
check for an open job with the same trigger, respectively (`Event.Honours`, `Event.Guarded`). -/

namespace RetryQueue

/-- How an attempt ended. -/
inductive Verdict
  | succeeded
  | failed
  | cancelled
deriving DecidableEq

/-- Where a job stands. -/
inductive Phase
  | waiting
  | active
  | done (v : Verdict)
deriving DecidableEq

/-- A job is open while an attempt of it runs or may still be started. -/
def Phase.IsOpen (p : Phase) : Prop := p = .waiting ∨ p = .active

structure Job (τ : Type u) where
  trigger : Option τ
  phase : Phase
  /-- The failed attempt that the next attempt continues. -/
  retryOf : Option ℕ

structure Attempt where
  job : ℕ
  /-- `none` while the attempt runs. -/
  verdict : Option Verdict
  cancelling : Bool
  retryOf : Option ℕ
  level : ℕ

/-- Jobs and attempts by number; `started` and `resumed` count, for each job, its attempts and
its resumptions. -/
structure State (τ : Type u) where
  job : ℕ → Option (Job τ)
  attempt : ℕ → Option Attempt
  started : ℕ → ℕ
  resumed : ℕ → ℕ

variable {τ : Type u}

/-- The level of an attempt that continues `retryOf`. -/
def State.levelAfter (s : State τ) : Option ℕ → ℕ
  | none => 0
  | some p => ((s.attempt p).map fun y => y.level + 1).getD 0

inductive Event (τ : Type u)
  | submit (j : ℕ) (trigger : Option τ)
  | start (j a : ℕ)
  | cancel (a : ℕ)
  | finish (a : ℕ) (v : Verdict)
  | requeue (a : ℕ)
  | resume (j : ℕ)

open Function (update)

inductive Step (limit : ℕ) : State τ → Event τ → State τ → Prop
  | submit {s : State τ} (hj : s.job j = none) :
    Step limit s (.submit j trigger)
      { s with job := update s.job j (some ⟨trigger, .waiting, none⟩) }
  | start {s : State τ} (hj : s.job j = some x) (hx : x.phase = .waiting)
      (ha : ∀ b y, s.attempt b = some y → b < a) :
    Step limit s (.start j a)
      { s with
        job := update s.job j (some { x with phase := .active, retryOf := none })
        attempt := update s.attempt a (some ⟨j, none, false, x.retryOf, s.levelAfter x.retryOf⟩)
        started := update s.started j (s.started j + 1) }
  | cancel {s : State τ} (ha : s.attempt a = some y) (hy : y.verdict = none) :
    Step limit s (.cancel a)
      { s with attempt := update s.attempt a (some { y with cancelling := true }) }
  | finish {s : State τ} (ha : s.attempt a = some y) (hy : y.verdict = none)
      (hj : s.job y.job = some x) (hx : x.phase = .active) :
    Step limit s (.finish a v)
      { s with
        job := update s.job y.job (some { x with phase := .done v })
        attempt := update s.attempt a (some { y with verdict := some v }) }
  | requeue {s : State τ} (ha : s.attempt a = some y) (hy : y.verdict = none)
      (hj : s.job y.job = some x) (hx : x.phase = .active) (hl : y.level < limit) :
    Step limit s (.requeue a)
      { s with
        job := update s.job y.job (some { x with phase := .waiting, retryOf := some a })
        attempt := update s.attempt a (some { y with verdict := some .failed }) }
  | resume {s : State τ} (hj : s.job j = some x) (hx : x.phase = .done .succeeded) :
    Step limit s (.resume j)
      { s with
        job := update s.job j (some { x with phase := .waiting })
        resumed := update s.resumed j (s.resumed j + 1) }

/-- Runs all of whose events satisfy `C` in the state they happen in. -/
def Runs (limit : ℕ) (C : State τ → Event τ → Prop) : State τ → State τ → Prop :=
  Relation.ReflTransGen fun s t => ∃ e, C s e ∧ Step limit s e t

namespace Runs
variable {limit : ℕ} {C D : State τ → Event τ → Prop} {s t u : State τ}

theorem refl : Runs limit C s s := Relation.ReflTransGen.refl

theorem of_eq (h : t = s) : Runs limit C s t := h ▸ refl

theorem single (hC : C s e) (h : Step limit s e t) : Runs limit C s t :=
  Relation.ReflTransGen.single ⟨e, hC, h⟩

theorem trans (h : Runs limit C s t) (h' : Runs limit C t u) : Runs limit C s u :=
  Relation.ReflTransGen.trans h h'

theorem mono (hCD : ∀ s e, C s e → D s e) (h : Runs limit C s t) : Runs limit D s t :=
  Relation.ReflTransGen.mono (fun _ _ ⟨e, hC, hs⟩ => ⟨e, hCD _ _ hC, hs⟩) _ _ h

/-- What every step keeps, a run keeps. -/
theorem invariant {P : State τ → Prop} (h : Runs limit C s t) (hs : P s)
    (step : ∀ s e t, P s → C s e → Step limit s e t → P t) : P t := by
  induction h with
  | refl => exact hs
  | tail _ hst ih =>
    obtain ⟨e, hC, hst⟩ := hst
    exact step _ _ _ ih hC hst

end Runs

/-! ## Lockstep of jobs and attempts -/

structure Lockstep (s : State τ) : Prop where
  attempt_job : s.attempt a = some y → ∃ x, s.job y.job = some x
  running_job : s.attempt a = some y → y.verdict = none →
    ∃ x, s.job y.job = some x ∧ x.phase = .active
  running_unique : s.attempt a = some y → s.attempt b = some z → y.verdict = none →
    z.verdict = none → y.job = z.job → a = b
  active_attempt : s.job j = some x → x.phase = .active →
    ∃ a y, s.attempt a = some y ∧ y.job = j ∧ y.verdict = none
  retry : s.job j = some x → x.retryOf = some p →
    x.phase = .waiting ∧ ∃ y, s.attempt p = some y ∧ y.job = j ∧ y.verdict = some .failed

/-- Closing the attempt `a` of an active job keeps the lockstep, whatever becomes of the job, as
long as it is not active and retries at most `a`. -/
theorem Lockstep.close {s : State τ} (H : Lockstep s) (ha : s.attempt a = some y)
    (hy : y.verdict = none) (hx : x.phase ≠ .active)
    (hr : ∀ p, x.retryOf = some p → x.phase = .waiting ∧ p = a ∧ v = .failed) :
    Lockstep { s with
      job := update s.job y.job (some x)
      attempt := update s.attempt a (some { y with verdict := some v }) } := by
  obtain ⟨attempt_job, running_job, running_unique, active_attempt, retry⟩ := H
  refine ⟨?_, ?_, ?_, ?_, ?_⟩
  · grind [Function.update_apply]
  · intro b z hb hz
    by_cases h : b = a
    · cases h
      cases (Function.update_self ..).symm.trans hb
      cases hz
    · replace hb : s.attempt b = some z := by simpa [Function.update_apply, h] using hb
      have hne : z.job ≠ y.job := fun hj => h (running_unique hb ha hz hy hj)
      simpa [Function.update_apply, hne] using running_job hb hz
  · grind [Function.update_apply]
  · intro k x' hk hp
    by_cases h : k = y.job
    · cases h
      cases (Function.update_self ..).symm.trans hk
      exact (hx hp).elim
    · obtain ⟨b, z, hb, hjob, hv⟩ := active_attempt (by simpa [Function.update_apply, h] using hk) hp
      have hba : b ≠ a := by rintro rfl; cases ha.symm.trans hb; exact h hjob.symm
      exact ⟨b, z, by simpa [Function.update_apply, hba] using hb, hjob, hv⟩
  · intro k x' p hk hp
    by_cases h : k = y.job
    · cases h
      cases (Function.update_self ..).symm.trans hk
      obtain ⟨hw, rfl, rfl⟩ := hr p hp
      exact ⟨hw, _, Function.update_self .., rfl, rfl⟩
    · obtain ⟨hw, z, hz, hjob, hv⟩ := retry (by simpa [Function.update_apply, h] using hk) hp
      have hpa : p ≠ a := by rintro rfl; cases ha.symm.trans hz; exact h hjob.symm
      exact ⟨hw, z, by simpa [Function.update_apply, hpa] using hz, hjob, hv⟩

theorem Lockstep.step {limit : ℕ} {s t : State τ} (H : Lockstep s) (h : Step limit s e t) :
    Lockstep t := by
  cases h with
  | submit hj =>
    obtain ⟨attempt_job, running_job, running_unique, active_attempt, retry⟩ := H
    refine ⟨?_, ?_, running_unique, ?_, ?_⟩ <;> grind [Function.update_apply]
  | @start j x a _ hj hx ha =>
    obtain ⟨attempt_job, running_job, running_unique, active_attempt, retry⟩ := H
    refine ⟨?_, ?_, ?_, ?_, ?_⟩
    · grind [Function.update_apply]
    · grind [Function.update_apply]
    · grind [Function.update_apply]
    · intro k x' hk hp
      by_cases h : k = j
      · exact ⟨a, _, Function.update_self .., h.symm, rfl⟩
      · obtain ⟨b, y, hb, hjob, hv⟩ := active_attempt (by simpa [update, h] using hk) hp
        exact ⟨b, y, by simpa [Function.update_apply, (ha b y hb).ne] using hb, hjob, hv⟩
    · grind [Function.update_apply]
  | @cancel a y _ ha hy =>
    obtain ⟨attempt_job, running_job, running_unique, active_attempt, retry⟩ := H
    refine ⟨?_, ?_, ?_, ?_, ?_⟩
    · grind [Function.update_apply]
    · grind [Function.update_apply]
    · grind [Function.update_apply]
    · intro k x' hk hp
      obtain ⟨b, z, hb, hjob, hv⟩ := active_attempt hk hp
      by_cases h : b = a
      · cases h
        cases ha.symm.trans hb
        exact ⟨a, _, Function.update_self .., hjob, hv⟩
      · exact ⟨b, z, by simpa [Function.update_apply, h] using hb, hjob, hv⟩
    · intro k x' p hk hp
      obtain ⟨hw, z, hz, hjob, hv⟩ := retry hk hp
      have h : p ≠ a := by rintro rfl; rw [hz] at ha; cases ha; rw [hv] at hy; cases hy
      exact ⟨hw, z, by simpa [Function.update_apply, h] using hz, hjob, hv⟩
  | finish ha hy hj hx =>
    refine H.close ha hy nofun fun p hp => ?_
    have := (H.retry hj hp).1
    rw [hx] at this
    cases this
  | requeue ha hy hj hx hl =>
    refine H.close ha hy nofun fun p hp => ?_
    cases hp
    exact ⟨rfl, rfl, rfl⟩
  | resume hj hx =>
    obtain ⟨attempt_job, running_job, running_unique, active_attempt, retry⟩ := H
    refine ⟨?_, ?_, running_unique, ?_, ?_⟩ <;> grind [Function.update_apply]

theorem Lockstep.run {limit : ℕ} {C : State τ → Event τ → Prop} {s t : State τ}
    (H : Lockstep s) (h : Runs limit C s t) : Lockstep t :=
  h.invariant H fun _ _ _ H _ hstep => H.step hstep

/-! ## Chains of retries -/

/-- What a retry chain depends on. -/
def Attempt.core (y : Attempt) : ℕ × Option ℕ × ℕ := (y.job, y.retryOf, y.level)

structure Chain (limit : ℕ) (s : State τ) : Prop where
  level_le : s.attempt a = some y → y.level ≤ limit
  fresh : s.attempt a = some y → y.retryOf = none → y.level = 0
  /-- An attempt continues the attempt of its job that came right before it. -/
  link : s.attempt a = some y → y.retryOf = some p → p < a ∧
    (∃ z, s.attempt p = some z ∧ z.job = y.job ∧ y.level = z.level + 1) ∧
    ∀ b w, s.attempt b = some w → w.job = y.job → b < a → b ≤ p
  latest : s.attempt a = some y → y.verdict = none →
    ∀ b w, s.attempt b = some w → w.job = y.job → b ≤ a
  /-- The attempt that a waiting job is to continue is its latest. -/
  pending : s.job j = some x → x.retryOf = some p →
    (∃ y, s.attempt p = some y ∧ y.job = j ∧ y.level < limit) ∧
    ∀ b w, s.attempt b = some w → w.job = j → b ≤ p

/-- Chains only depend on the cores of the attempts, on which attempts run, and on the retries
that are due; a retry of a running attempt below the limit may become due. -/
theorem Chain.congr {limit : ℕ} {s t : State τ} (H : Chain limit s)
    (hcore : ∀ a, (t.attempt a).map Attempt.core = (s.attempt a).map Attempt.core)
    (hrun : ∀ a y, t.attempt a = some y → y.verdict = none →
      ∃ z, s.attempt a = some z ∧ z.verdict = none)
    (hdue : ∀ j x p, t.job j = some x → x.retryOf = some p →
      (∃ x', s.job j = some x' ∧ x'.retryOf = some p) ∨
      ∃ y, s.attempt p = some y ∧ y.verdict = none ∧ y.job = j ∧ y.level < limit) :
    Chain limit t := by
  have back : ∀ a y, t.attempt a = some y → ∃ z, s.attempt a = some z ∧ z.core = y.core := by
    intro a y ha
    have := hcore a
    rw [ha] at this
    simpa [eq_comm] using this
  have forth : ∀ a y, s.attempt a = some y → ∃ z, t.attempt a = some z ∧ z.core = y.core := by
    intro a y ha
    have := hcore a
    rw [ha] at this
    simpa using this
  simp only [Attempt.core, Prod.mk.injEq] at back forth
  obtain ⟨level_le, fresh, link, latest, pending⟩ := H
  refine ⟨?_, ?_, ?_, ?_, ?_⟩
  · intro a y ha
    obtain ⟨z, hz, _, _, hl⟩ := back a y ha
    exact hl ▸ level_le hz
  · intro a y ha hy
    obtain ⟨z, hz, _, hr, hl⟩ := back a y ha
    exact hl ▸ fresh hz (hr.trans hy)
  · intro a y p ha hy
    obtain ⟨z, hz, hj, hr, hl⟩ := back a y ha
    obtain ⟨hlt, ⟨q, hq, hqj, hql⟩, hbetween⟩ := link hz (hr.trans hy)
    obtain ⟨q', hq', hqj', _, hql'⟩ := forth p q hq
    refine ⟨hlt, ⟨q', hq', by rw [hqj', hqj, hj], by rw [← hl, hql, hql']⟩, ?_⟩
    intro b w hb hw hlt'
    obtain ⟨w', hw', hwj, _⟩ := back b w hb
    exact hbetween b w' hw' (by rw [hwj, hw, hj]) hlt'
  · intro a y ha hy b w hb hw
    obtain ⟨z, hz, hv⟩ := hrun a y ha hy
    obtain ⟨z', hz', hj, _⟩ := back a y ha
    cases hz.symm.trans hz'
    obtain ⟨w', hw', hwj, _⟩ := back b w hb
    exact latest hz hv b w' hw' (by rw [hwj, hw, hj])
  · intro j x p hj hp
    have due : (∃ y, s.attempt p = some y ∧ y.job = j ∧ y.level < limit) ∧
        ∀ b w, s.attempt b = some w → w.job = j → b ≤ p := by
      rcases hdue j x p hj hp with ⟨x', hj', hp'⟩ | ⟨y, hy, hv, rfl, hl⟩
      · exact pending hj' hp'
      · exact ⟨⟨y, hy, rfl, hl⟩, latest hy hv⟩
    obtain ⟨⟨y, hy, hyj, hl⟩, hall⟩ := due
    obtain ⟨z, hz, hzj, _, hzl⟩ := forth p y hy
    refine ⟨⟨z, hz, hzj.trans hyj, hzl ▸ hl⟩, fun b w hb hw => ?_⟩
    obtain ⟨w', hw', hwj, _⟩ := back b w hb
    exact hall b w' hw' (hwj.trans hw)

theorem core_update {s : State τ} (ha : s.attempt a = some y) (h : y'.core = y.core) (b : ℕ) :
    (update s.attempt a (some y') b).map Attempt.core = (s.attempt b).map Attempt.core := by
  by_cases hb : b = a
  · subst hb; simp [ha, h]
  · simp [hb]

theorem Chain.step {limit : ℕ} {s t : State τ} (H : Chain limit s) (L : Lockstep s)
    (h : Step limit s e t) : Chain limit t := by
  cases h with
  | submit hj =>
    refine H.congr (fun _ => rfl) (fun _ _ ha hv => ⟨_, ha, hv⟩) fun k x p hk hp => ?_
    grind [Function.update_apply]
  | @start j x a _ hj hx ha =>
    have hne : ∀ b y, s.attempt b = some y → b ≠ a := fun b y hb => (ha b y hb).ne
    obtain ⟨level_le, fresh, link, latest, pending⟩ := H
    -- what the new attempt's level is, given what it continues
    have hlevel : ∀ p, x.retryOf = some p → ∃ y, s.attempt p = some y ∧ y.job = j ∧
        y.level < limit ∧ s.levelAfter x.retryOf = y.level + 1 := by
      intro p hp
      obtain ⟨⟨y, hy, hyj, hl⟩, _⟩ := pending hj hp
      exact ⟨y, hy, hyj, hl, by simp [State.levelAfter, hp, hy]⟩
    refine ⟨?_, ?_, ?_, ?_, ?_⟩
    · intro b y hb
      by_cases h : b = a
      · cases h
        cases (Function.update_self ..).symm.trans hb
        cases hp : x.retryOf with
        | none => simp [State.levelAfter]
        | some p =>
          obtain ⟨y, _, _, hl, heq⟩ := hlevel p hp
          rw [hp] at heq
          simp only [heq]
          exact hl
      · exact level_le (by simpa [Function.update_apply, h] using hb)
    · intro b y hb hy
      by_cases h : b = a
      · cases h
        cases (Function.update_self ..).symm.trans hb
        simp only at hy
        simp [State.levelAfter, hy]
      · exact fresh (by simpa [Function.update_apply, h] using hb) hy
    · intro b y p hb hy
      by_cases h : b = a
      · cases h
        cases (Function.update_self ..).symm.trans hb
        obtain ⟨z, hz, hzj, _, heq⟩ := hlevel p hy
        refine ⟨ha _ _ hz, ⟨z, by simpa [Function.update_apply, hne _ _ hz] using hz, hzj, heq⟩, ?_⟩
        intro c w hc hw hlt
        exact (pending hj hy).2 c w (by simpa [Function.update_apply, hlt.ne] using hc) hw
      · replace hb : s.attempt b = some y := by simpa [Function.update_apply, h] using hb
        obtain ⟨hlt, ⟨z, hz, hzj, hzl⟩, hbetween⟩ := link hb hy
        refine ⟨hlt, ⟨z, by simpa [Function.update_apply, hne _ _ hz] using hz, hzj, hzl⟩, ?_⟩
        intro c w hc hw hlt'
        have hca : c ≠ a := (hlt'.trans (ha _ _ hb)).ne
        exact hbetween c w (by simpa [Function.update_apply, hca] using hc) hw hlt'
    · intro b y hb hy c w hc hw
      by_cases h : b = a
      · by_cases h' : c = a
        · exact (h'.trans h.symm).le
        · exact h ▸ (ha c w (by simpa [Function.update_apply, h'] using hc)).le
      · -- another running attempt of `j` would make `j` active
        replace hb : s.attempt b = some y := by simpa [Function.update_apply, h] using hb
        obtain ⟨x', hx', hp'⟩ := L.running_job hb hy
        have hyj : y.job ≠ j := by
          rintro rfl
          cases hj.symm.trans hx'
          rw [hx] at hp'
          cases hp'
        by_cases h' : c = a
        · cases h'
          cases (Function.update_self ..).symm.trans hc
          exact (hyj hw.symm).elim
        · exact latest hb hy c w (by simpa [Function.update_apply, h'] using hc) hw
    · intro k x' p hk hp
      by_cases h : k = j
      · cases h
        cases (Function.update_self ..).symm.trans hk
        cases hp
      · obtain ⟨⟨y, hy, hyj, hl⟩, hall⟩ :=
          pending (by simpa [Function.update_apply, h] using hk) hp
        refine ⟨⟨y, by simpa [Function.update_apply, hne _ _ hy] using hy, hyj, hl⟩, ?_⟩
        intro c w hc hw
        by_cases h' : c = a
        · cases h'
          cases (Function.update_self ..).symm.trans hc
          exact (h hw.symm).elim
        · exact hall c w (by simpa [Function.update_apply, h'] using hc) hw
  | @cancel a y _ ha hy =>
    refine H.congr (core_update ha rfl) (fun b z hb hz => ?_) fun j x p hj hp => .inl ⟨x, hj, hp⟩
    grind [Function.update_apply]
  | @finish a y x v _ ha hy hj hx =>
    refine H.congr (core_update ha rfl) (fun b z hb hz => ?_) fun k x' p hk hp => .inl ?_
    · grind [Function.update_apply]
    · grind [Function.update_apply]
  | @requeue a y x _ ha hy hj hx hl =>
    refine H.congr (core_update ha rfl) (fun b z hb hz => ?_) fun k x' p hk hp => ?_
    · grind [Function.update_apply]
    · by_cases h : k = y.job
      · cases h
        cases (Function.update_self ..).symm.trans hk
        cases hp
        exact .inr ⟨y, ha, hy, rfl, hl⟩
      · exact .inl ⟨x', by simpa [Function.update_apply, h] using hk, hp⟩
  | resume hj hx =>
    refine H.congr (fun _ => rfl) (fun _ _ ha hv => ⟨_, ha, hv⟩) fun k x p hk hp => ?_
    grind [Function.update_apply]

/-- An attempt is continued by at most one other. -/
theorem Chain.retry_unique {limit : ℕ} {s : State τ} (H : Chain limit s)
    (ha : s.attempt a = some y) (hb : s.attempt b = some z) (hy : y.retryOf = some p)
    (hz : z.retryOf = some p) : a = b := by
  obtain ⟨hpa, ⟨w, hw, hwy, _⟩, hya⟩ := H.link ha hy
  obtain ⟨hpb, ⟨w', hw', hwz, _⟩, hzb⟩ := H.link hb hz
  cases hw.symm.trans hw'
  rcases lt_trichotomy a b with h | h | h
  · exact absurd (hzb a y ha (by rw [← hwy, hwz]) h) (by omega)
  · exact h
  · exact absurd (hya b z hb (by rw [← hwz, hwy]) h) (by omega)

/-! ## The attempts a job gets -/

structure Budget (limit : ℕ) (s : State τ) : Prop where
  unknown : s.job j = none → s.started j = 0
  waiting : s.job j = some x → x.phase = .waiting → x.retryOf = none →
    s.started j ≤ (limit + 1) * s.resumed j
  due : s.job j = some x → x.retryOf = some p → s.attempt p = some y →
    s.started j ≤ (limit + 1) * s.resumed j + (y.level + 1)
  running : s.attempt a = some y → y.verdict = none →
    s.started y.job ≤ (limit + 1) * s.resumed y.job + (y.level + 1)
  done : s.job j = some x → x.phase = .done v → s.started j ≤ (limit + 1) * (s.resumed j + 1)

theorem Budget.step {limit : ℕ} {s t : State τ} (H : Budget limit s) (L : Lockstep s)
    (K : Chain limit s) (h : Step limit s e t) : Budget limit t := by
  obtain ⟨unknown, waiting, due, running, done⟩ := H
  cases h with
  | @submit j trigger _ hj =>
    have hrun : ∀ a y, s.attempt a = some y → y.job ≠ j := by
      rintro a y ha rfl
      obtain ⟨x, hx⟩ := L.attempt_job ha
      cases hj.symm.trans hx
    refine ⟨?_, ?_, ?_, running, ?_⟩
    · grind [Function.update_apply]
    · intro k x hk hp hr
      by_cases h : k = j
      · subst h; simp [unknown hj]
      · exact waiting (by simpa [Function.update_apply, h] using hk) hp hr
    · grind [Function.update_apply]
    · grind [Function.update_apply]
  | @start j x a _ hj hx ha =>
    have hne : ∀ b y, s.attempt b = some y → b ≠ a := fun b y hb => (ha b y hb).ne
    have hnew : s.started j + 1 ≤
        (limit + 1) * s.resumed j + (s.levelAfter x.retryOf + 1) := by
      cases hp : x.retryOf with
      | none => simpa [State.levelAfter] using waiting hj hx hp
      | some p =>
        obtain ⟨⟨y, hy, _, _⟩, _⟩ := K.pending hj hp
        have := due hj hp hy
        simp only [State.levelAfter, hy, Option.map_some, Option.getD_some]
        omega
    -- no other attempt of `j` runs
    have hidle : ∀ b y, s.attempt b = some y → y.verdict = none → y.job ≠ j := by
      rintro b y hb hy rfl
      obtain ⟨x', hx', hp'⟩ := L.running_job hb hy
      cases hj.symm.trans hx'
      rw [hx] at hp'
      cases hp'
    refine ⟨?_, ?_, ?_, ?_, ?_⟩
    · grind [Function.update_apply]
    · grind [Function.update_apply]
    · intro k x' p y hk hp hy
      by_cases h : k = j
      · cases h
        cases (Function.update_self ..).symm.trans hk
        cases hp
      · replace hk : s.job k = some x' := by simpa [Function.update_apply, h] using hk
        obtain ⟨⟨z, hz, _, _⟩, _⟩ := K.pending hk hp
        replace hy : s.attempt p = some y := by
          simpa [Function.update_apply, hne _ _ hz] using hy
        simpa [Function.update_apply, h] using due hk hp hy
    · intro b y hb hy
      by_cases h : b = a
      · cases h
        cases (Function.update_self ..).symm.trans hb
        simpa [Function.update_apply] using hnew
      · replace hb : s.attempt b = some y := by simpa [Function.update_apply, h] using hb
        simpa [Function.update_apply, hidle b y hb hy] using running hb hy
    · grind [Function.update_apply]
  | @cancel a y _ ha hy =>
    refine ⟨unknown, waiting, ?_, ?_, done⟩ <;> grind [Function.update_apply]
  | @finish a y x v _ ha hy hj hx =>
    have hnow := running ha hy
    have hlevel := K.level_le ha
    refine ⟨?_, ?_, ?_, ?_, ?_⟩
    · grind [Function.update_apply]
    · grind [Function.update_apply]
    · grind [Function.update_apply]
    · grind [Function.update_apply]
    · intro k x' v' hk hp
      by_cases h : k = y.job
      · subst h
        simp only [Nat.mul_add, Nat.mul_one]
        omega
      · exact done (by simpa [Function.update_apply, h] using hk) hp
  | @requeue a y x _ ha hy hj hx hl =>
    have hnow := running ha hy
    refine ⟨?_, ?_, ?_, ?_, ?_⟩
    · grind [Function.update_apply]
    · grind [Function.update_apply]
    · intro k x' p z hk hp hz
      by_cases h : k = y.job
      · cases h
        cases (Function.update_self ..).symm.trans hk
        cases hp
        cases (Function.update_self ..).symm.trans hz
        exact hnow
      · replace hk : s.job k = some x' := by simpa [Function.update_apply, h] using hk
        grind [Function.update_apply]
    · grind [Function.update_apply]
    · grind [Function.update_apply]
  | @resume j x _ hj hx =>
    have hretry : x.retryOf = none := by
      cases hp : x.retryOf with
      | none => rfl
      | some p =>
        have := (L.retry hj hp).1
        rw [hx] at this
        cases this
    have hidle : ∀ b y, s.attempt b = some y → y.verdict = none → y.job ≠ j := by
      rintro b y hb hy rfl
      obtain ⟨x', hx', hp'⟩ := L.running_job hb hy
      cases hj.symm.trans hx'
      rw [hx] at hp'
      cases hp'
    refine ⟨?_, ?_, ?_, ?_, ?_⟩
    · grind [Function.update_apply]
    · intro k x' hk hp hr
      by_cases h : k = j
      · subst h; simpa using done hj hx
      · have := waiting (by simpa [Function.update_apply, h] using hk) hp hr
        simpa [Function.update_apply, h] using this
    · intro k x' p y hk hp hy
      by_cases h : k = j
      · cases h
        cases (Function.update_self ..).symm.trans hk
        cases hretry.symm.trans hp
      · have := due (by simpa [Function.update_apply, h] using hk) hp hy
        simpa [Function.update_apply, h] using this
    · intro b y hb hy
      simpa [Function.update_apply, hidle b y hb hy] using running hb hy
    · grind [Function.update_apply]

/-- **A job gets at most `limit + 1` attempts per submission or resumption.** -/
theorem Budget.started_le {limit : ℕ} {s : State τ} (H : Budget limit s) (L : Lockstep s)
    (K : Chain limit s) (j : ℕ) : s.started j ≤ (limit + 1) * (s.resumed j + 1) := by
  have widen : ∀ l, l ≤ limit →
      (limit + 1) * s.resumed j + (l + 1) ≤ (limit + 1) * (s.resumed j + 1) := by
    intro l hl
    simp only [Nat.mul_add, Nat.mul_one]
    omega
  cases hj : s.job j with
  | none => simp [H.unknown hj]
  | some x =>
    cases hp : x.phase with
    | waiting =>
      cases hr : x.retryOf with
      | none => exact (H.waiting hj hp hr).trans (Nat.mul_le_mul_left _ (Nat.le_succ _))
      | some p =>
        obtain ⟨⟨y, hy, _, hl⟩, _⟩ := K.pending hj hr
        exact (H.due hj hr hy).trans (widen _ hl.le)
    | active =>
      obtain ⟨a, y, ha, rfl, hv⟩ := L.active_attempt hj hp
      exact (H.running ha hv).trans (widen _ (K.level_le ha))
    | done v => exact H.done hj hp

/-! ## Every run -/

/-- The invariant of every run. -/
structure Sound (limit : ℕ) (s : State τ) : Prop where
  lockstep : Lockstep s
  chain : Chain limit s
  budget : Budget limit s

theorem Sound.step {limit : ℕ} {s t : State τ} (H : Sound limit s) (h : Step limit s e t) :
    Sound limit t :=
  ⟨H.lockstep.step h, H.chain.step H.lockstep h, H.budget.step H.lockstep H.chain h⟩

theorem Sound.run {limit : ℕ} {C : State τ → Event τ → Prop} {s t : State τ}
    (H : Sound limit s) (h : Runs limit C s t) : Sound limit t :=
  h.invariant H fun _ _ _ H _ hstep => H.step hstep

/-- The queue without jobs. -/
def State.initial : State τ := ⟨fun _ => none, fun _ => none, fun _ => 0, fun _ => 0⟩

theorem Sound.initial (limit : ℕ) : Sound limit (State.initial : State τ) :=
  ⟨⟨nofun, nofun, nofun, nofun, nofun⟩, ⟨nofun, nofun, nofun, nofun, nofun⟩,
    ⟨fun _ => rfl, nofun, nofun, nofun, nofun⟩⟩

/-! ## Cancellation -/

/-- The event does not close the attempt `a` while it is cancelling, other than as cancelled. -/
def Event.Honours (a : ℕ) (s : State τ) : Event τ → Prop
  | .finish b v => b = a → ∀ y, s.attempt a = some y → y.cancelling = true → v = .cancelled
  | .requeue b => b = a → ∀ y, s.attempt a = some y → y.cancelling = false
  | _ => True

/-- A cancellation of `a` was requested and is not lost: `a` still runs with the request on
record, or both `a` and its job are cancelled. -/
def CancelKept (a : ℕ) (s : State τ) : Prop :=
  ∃ y x, s.attempt a = some y ∧ s.job y.job = some x ∧
    (y.verdict = none ∧ y.cancelling = true ∧ x.phase = .active ∨
      y.verdict = some .cancelled ∧ x.phase = .done .cancelled)

theorem CancelKept.step {limit : ℕ} {s t : State τ} (H : CancelKept a s) (L : Lockstep s)
    (hC : e.Honours a s) (h : Step limit s e t) : CancelKept a t := by
  obtain ⟨y, x, hy, hx, H⟩ := H
  cases h with
  | @submit j trigger _ hj =>
    have hne : y.job ≠ j := by rintro rfl; cases hj.symm.trans hx
    exact ⟨y, x, hy, by simpa [Function.update_apply, hne] using hx, H⟩
  | @start j x' b _ hj hx' hb =>
    have hne : y.job ≠ j := by
      rintro rfl
      cases hj.symm.trans hx
      rcases H with ⟨_, _, h⟩ | ⟨_, h⟩ <;> cases hx'.symm.trans h
    exact ⟨y, x, by simpa [Function.update_apply, (hb a y hy).ne] using hy,
      by simpa [Function.update_apply, hne] using hx, H⟩
  | @cancel b z _ hb hz =>
    by_cases h : a = b
    · subst h
      cases hy.symm.trans hb
      refine ⟨_, x, Function.update_self .., hx, ?_⟩
      exact H.imp (fun ⟨h1, _, h3⟩ => ⟨h1, rfl, h3⟩) id
    · exact ⟨y, x, by simpa [Function.update_apply, h] using hy, hx, H⟩
  | @finish b z x' v _ hb hz hj hx' =>
    by_cases h : a = b
    · subst h
      cases hy.symm.trans hb
      rcases H with ⟨_, hc, _⟩ | ⟨h, _⟩
      · cases hC rfl y hb hc
        exact ⟨_, _, Function.update_self .., Function.update_self .., .inr ⟨rfl, rfl⟩⟩
      · cases hz.symm.trans h
    · have hne : y.job ≠ z.job := by
        intro hjob
        rw [hjob] at hx
        cases hj.symm.trans hx
        rcases H with ⟨h1, _⟩ | ⟨_, h2⟩
        · exact h (L.running_unique hy hb h1 hz hjob)
        · cases hx'.symm.trans h2
      exact ⟨y, x, by simpa [Function.update_apply, h] using hy,
        by simpa [Function.update_apply, hne] using hx, H⟩
  | @requeue b z x' _ hb hz hj hx' hl =>
    by_cases h : a = b
    · subst h
      cases hy.symm.trans hb
      rcases H with ⟨_, hc, _⟩ | ⟨h, _⟩
      · cases (hC rfl y hb).symm.trans hc
      · cases hz.symm.trans h
    · have hne : y.job ≠ z.job := by
        intro hjob
        rw [hjob] at hx
        cases hj.symm.trans hx
        rcases H with ⟨h1, _⟩ | ⟨_, h2⟩
        · exact h (L.running_unique hy hb h1 hz hjob)
        · cases hx'.symm.trans h2
      exact ⟨y, x, by simpa [Function.update_apply, h] using hy,
        by simpa [Function.update_apply, hne] using hx, H⟩
  | @resume j x' _ hj hx' =>
    have hne : y.job ≠ j := by
      rintro rfl
      cases hj.symm.trans hx
      rcases H with ⟨_, _, h⟩ | ⟨_, h⟩ <;> cases hx'.symm.trans h
    exact ⟨y, x, hy, by simpa [Function.update_apply, hne] using hx, H⟩

/-- **A run that honours the cancellation of an attempt does not lose it.** -/
theorem CancelKept.run {limit : ℕ} {s t : State τ} (H : CancelKept a s) (L : Lockstep s)
    (h : Runs limit (fun s e => e.Honours a s) s t) : CancelKept a t :=
  (h.invariant (P := fun s => CancelKept a s ∧ Lockstep s) ⟨H, L⟩
    fun _ _ _ ⟨H, L⟩ hC hstep => ⟨H.step L hC hstep, L.step hstep⟩).1

/-! ## Verdicts -/

/-- A job that is done has an attempt with its verdict. -/
def Judged (s : State τ) : Prop :=
  ∀ j x v, s.job j = some x → x.phase = .done v →
    ∃ a y, s.attempt a = some y ∧ y.job = j ∧ y.verdict = some v

/-- The verdicts of other attempts stay. -/
theorem Judged.replace {s : State τ} (H : Judged s) {j : ℕ} {x : Job τ} {a : ℕ} {y : Attempt}
    (hj : ∀ v, x.phase = .done v → y.job = j ∧ y.verdict = some v)
    (ha : ∀ z v, s.attempt a = some z → z.verdict = some v → y.job = z.job ∧ y.verdict = some v) :
    Judged { s with job := update s.job j (some x), attempt := update s.attempt a (some y) } := by
  intro i x' v hi hv
  simp only [Function.update_apply] at hi
  split at hi
  · next hij =>
    cases hi
    obtain ⟨hyj, hyv⟩ := hj v hv
    exact ⟨a, y, by simp, hyj.trans hij.symm, hyv⟩
  · obtain ⟨b, z, hb, hzj, hzv⟩ := H i x' v hi hv
    by_cases hba : b = a
    · subst hba
      obtain ⟨hyj, hyv⟩ := ha z v hb hzv
      exact ⟨b, y, by simp, hyj.trans hzj, hyv⟩
    · exact ⟨b, z, by simpa [hba] using hb, hzj, hzv⟩

theorem Judged.step {limit : ℕ} {s t : State τ} (H : Judged s) (h : Step limit s e t) : Judged t := by
  have hwaiting : ∀ {j} {x : Job τ}, x.phase = .waiting → ∀ {started resumed},
      Judged ⟨update s.job j (some x), s.attempt, started, resumed⟩ := by
    intro j x hx started resumed i x' v hi hv
    simp only [Function.update_apply] at hi
    split at hi
    · cases hi
      exact nomatch hx.symm.trans hv
    · exact H i x' v hi hv
  cases h with
  | submit _ => exact hwaiting rfl
  | resume _ _ => exact hwaiting rfl
  | start _ _ ha => exact H.replace nofun fun z _ hz _ => ((ha _ z hz).false).elim
  | @cancel a y _ ha hy =>
    intro i x' v hi hv
    obtain ⟨b, z, hb, hzj, hzv⟩ := H i x' v hi hv
    by_cases hba : b = a
    · subst hba
      cases hb.symm.trans ha
      exact nomatch hy.symm.trans hzv
    · exact ⟨b, z, by simpa [hba] using hb, hzj, hzv⟩
  | @finish a y x v _ ha hy _ _ =>
    refine H.replace (fun _ hv => ?_) fun z _ hz hzv => ?_
    · cases hv
      exact ⟨rfl, rfl⟩
    · cases hz.symm.trans ha
      exact nomatch hy.symm.trans hzv
  | @requeue a y x _ ha hy _ _ _ =>
    refine H.replace nofun fun z _ hz hzv => ?_
    cases hz.symm.trans ha
    exact nomatch hy.symm.trans hzv

theorem Judged.initial : Judged (State.initial : State τ) := nofun

/-! ## One open job per trigger -/

/-- Some job with trigger `k` is open. -/
def State.Opened (s : State τ) (k : τ) : Prop :=
  ∃ j x, s.job j = some x ∧ x.trigger = some k ∧ x.phase.IsOpen

/-- The event opens no job whose trigger already has an open one. -/
def Event.Guarded (s : State τ) : Event τ → Prop
  | .submit _ trigger => ∀ k, trigger = some k → ¬ s.Opened k
  | .resume j => ∀ x k, s.job j = some x → x.trigger = some k → ¬ s.Opened k
  | _ => True

def Exclusive (s : State τ) : Prop :=
  ∀ i j x y k, s.job i = some x → s.job j = some y → x.trigger = some k → y.trigger = some k →
    x.phase.IsOpen → y.phase.IsOpen → i = j

/-- A step that only closes jobs, or moves open ones, keeps `Exclusive`. -/
theorem Exclusive.congr {s t : State τ} (H : Exclusive s)
    (h : ∀ j x k, t.job j = some x → x.trigger = some k → x.phase.IsOpen →
      ∃ y, s.job j = some y ∧ y.trigger = some k ∧ y.phase.IsOpen) : Exclusive t := by
  intro i j x y k hi hj hx hy hpx hpy
  obtain ⟨x', hi', hx', hpx'⟩ := h i x k hi hx hpx
  obtain ⟨y', hj', hy', hpy'⟩ := h j y k hj hy hpy
  exact H i j x' y' k hi' hj' hx' hy' hpx' hpy'

/-- Opening the job `j` keeps `Exclusive` when its trigger has no open job. -/
theorem Exclusive.opening {s t : State τ} (H : Exclusive s)
    (hj : ∀ k, x.trigger = some k → ¬ s.Opened k)
    (ht : t.job = update s.job j (some x)) : Exclusive t := by
  intro i i' y y' k hi hi' hy hy' hp hp'
  rw [ht] at hi hi'
  have other : ∀ i z, i ≠ j → update s.job j (some x) i = some z → s.job i = some z :=
    fun i z h hz => by simpa [Function.update_apply, h] using hz
  by_cases h : i = j <;> by_cases h' : i' = j
  · exact h.trans h'.symm
  · subst h
    cases (Function.update_self ..).symm.trans hi
    exact (hj k hy ⟨i', y', other _ _ h' hi', hy', hp'⟩).elim
  · subst h'
    cases (Function.update_self ..).symm.trans hi'
    exact (hj k hy' ⟨i, y, other _ _ h hi, hy, hp⟩).elim
  · exact H i i' y y' k (other _ _ h hi) (other _ _ h' hi') hy hy' hp hp'

theorem Exclusive.step {limit : ℕ} {s t : State τ} (H : Exclusive s) (hC : e.Guarded s)
    (h : Step limit s e t) : Exclusive t := by
  cases h with
  | @submit j trigger _ hj => exact H.opening (x := ⟨trigger, .waiting, none⟩) hC rfl
  | @resume j x _ hj hx =>
    have hfree : ∀ k, x.trigger = some k → ¬ s.Opened k := fun k hk => hC _ k hj hk
    exact H.opening (x := { x with phase := .waiting }) hfree rfl
  | cancel ha hy => exact H.congr fun j x k hj hk hp => ⟨x, hj, hk, hp⟩
  | start hj hx ha =>
    refine H.congr fun k x' τ hk hτ hp => ?_
    grind [Function.update_apply, Phase.IsOpen]
  | finish ha hy hj hx =>
    refine H.congr fun k x' τ hk hτ hp => ?_
    grind [Function.update_apply, Phase.IsOpen]
  | requeue ha hy hj hx hl =>
    refine H.congr fun k x' τ hk hτ hp => ?_
    grind [Function.update_apply, Phase.IsOpen]

/-- **A run that checks for open jobs opens at most one per trigger.** -/
theorem Exclusive.run {limit : ℕ} {s t : State τ} (H : Exclusive s)
    (h : Runs limit (fun s e => e.Guarded s) s t) : Exclusive t :=
  h.invariant H fun _ _ _ H hC hstep => H.step hC hstep

theorem Exclusive.initial : Exclusive (State.initial : State τ) := nofun

/-! ## Active jobs -/

/-- Only the start of an attempt makes a job active. -/
theorem Step.active {limit : ℕ} {s t : State τ} (h : Step limit s e t) (he : ∀ j a, e ≠ .start j a)
    (hj : t.job j = some x) (hx : x.phase = .active) : s.job j = some x := by
  have other : ∀ {i y}, y.phase ≠ .active → update s.job i (some y) j = some x → s.job j = some x := by
    intro i y hy h
    rw [Function.update_apply] at h
    split at h
    · cases h
      exact (hy hx).elim
    · exact h
  cases h with
  | submit _ => exact other (by simp) hj
  | start _ _ _ => exact (he _ _ rfl).elim
  | cancel _ _ => exact hj
  | finish _ _ _ _ => exact other (by simp) hj
  | requeue _ _ _ _ _ => exact other (by simp) hj
  | resume _ _ => exact other (by simp) hj

theorem Runs.active {limit : ℕ} {s t : State τ}
    (h : Runs limit (fun _ e => ∀ j a, e ≠ .start j a) s t) (hj : t.job j = some x)
    (hx : x.phase = .active) : s.job j = some x := by
  induction h with
  | refl => exact hj
  | tail _ hst ih =>
    obtain ⟨e, he, hst⟩ := hst
    exact ih (hst.active he hj hx)

/-! ## Jobs that are over -/

/-- Only a resumption reopens a job. -/
theorem Step.done {limit : ℕ} {s t : State τ} (h : Step limit s e t) (he : e ≠ .resume j)
    (hj : s.job j = some x) (hx : x.phase = .done v) : t.job j = some x := by
  have other : ∀ {i x'} {y : Job τ}, s.job i = some x' → x'.phase ≠ .done v →
    update s.job i (some y) j = some x := by
    intro i x' y hi hphase
    have hne : j ≠ i := by
      rintro rfl
      cases hi.symm.trans hj
      exact hphase hx
    rwa [Function.update_of_ne hne]
  cases h with
  | @submit i trigger _ hi =>
    have hne : j ≠ i := by
      rintro rfl
      cases hi.symm.trans hj
    exact (Function.update_of_ne hne _ _).trans hj
  | start hi hphase _ => exact other hi (by simp [hphase])
  | cancel _ _ => exact hj
  | finish _ _ hi hphase => exact other hi (by simp [hphase])
  | requeue _ _ hi hphase _ => exact other hi (by simp [hphase])
  | resume _ _ => exact (Function.update_of_ne (fun h => he (by rw [h])) _ _).trans hj

theorem Runs.done {limit : ℕ} {s t : State τ} (h : Runs limit (fun _ e => e ≠ .resume j) s t)
    (hj : s.job j = some x) (hx : x.phase = .done v) : t.job j = some x :=
  h.invariant (P := fun s => s.job j = some x) hj fun _ _ _ hj he hstep => hstep.done he hj hx

/-! ## Known jobs -/

/-- Only a submission adds a job. -/
theorem Step.known {limit : ℕ} {s t : State τ} (h : Step limit s e t)
    (he : ∀ j trigger, e ≠ .submit j trigger) (hj : (t.job j).isSome) : (s.job j).isSome := by
  have other : ∀ {i x} {y : Job τ}, s.job i = some x → (update s.job i (some y) j).isSome →
      (s.job j).isSome := by
    intro i x y hi h
    rw [Function.update_apply] at h
    split at h
    · next hji => rw [hji, hi, Option.isSome_some]
    · exact h
  cases h with
  | submit _ => exact (he _ _ rfl).elim
  | start hi _ _ => exact other hi hj
  | cancel _ _ => exact hj
  | finish _ _ hi _ => exact other hi hj
  | requeue _ _ hi _ _ => exact other hi hj
  | resume hi _ => exact other hi hj

theorem Runs.known {limit : ℕ} {s t : State τ}
    (h : Runs limit (fun _ e => ∀ j trigger, e ≠ .submit j trigger) s t) (hj : (t.job j).isSome) :
    (s.job j).isSome := by
  induction h with
  | refl => exact hj
  | tail _ hst ih =>
    obtain ⟨e, he, hst⟩ := hst
    exact ih (hst.known he hj)

end RetryQueue
