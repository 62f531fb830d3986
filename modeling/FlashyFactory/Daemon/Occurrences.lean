import FlashyFactory.Daemon.Schedules
import FlashyFactory.Lib.Occurrences
import Mathlib.Data.List.Chain
import Mathlib.Data.List.Induction

/-! # Catching up with a schedule

`next_occurrence`, which looks for minutes that the crate has skipped, and the inner loop of
`evaluate_schedules`. -/

namespace FlashyFactory

/-! ## The next occurrence -/

/-- What `after(..).next()` promises. -/
structure CronSchedule.Sound (schedule : CronSchedule) : Prop where
  later : ∀ after candidate, schedule.after after = some candidate → after < candidate
  included : ∀ after candidate, schedule.after after = some candidate → schedule.includes candidate = true

def WholeMinute (t : ℤ) : Prop := t % 60000 = 0

theorem firstIncluded_eq_some {schedule : CronSchedule} {scanUntil probe r : ℤ} {n : ℕ}
    (h : schedule.firstIncluded scanUntil n probe = some r) :
    ∃ k : ℕ, r = probe + 60000 * k ∧ r ≤ scanUntil ∧ schedule.includes r = true ∧
      ∀ j < k, schedule.includes (probe + 60000 * j) = false := by
  induction n generalizing probe with
  | zero => cases h
  | succ n ih =>
    rw [CronSchedule.firstIncluded] at h
    split at h
    · next hprobe =>
      split at h
      · next hincluded =>
        cases h
        exact ⟨0, by simp, hprobe, hincluded, nofun⟩
      · next hskipped =>
        obtain ⟨k, rfl, hle, hincluded, hnone⟩ := ih h
        refine ⟨k + 1, by omega, hle, hincluded, fun j hj => ?_⟩
        cases j with
        | zero => simpa using hskipped
        | succ j =>
          have hrest := hnone j (by omega)
          rwa [show probe + 60000 * ((j + 1 : ℕ) : ℤ) = probe + 60000 + 60000 * j by omega]
    · cases h

theorem firstIncluded_eq_none {schedule : CronSchedule} {scanUntil probe : ℤ} {n j : ℕ}
    (h : schedule.firstIncluded scanUntil n probe = none) (hj : j < n) (hle : probe + 60000 * j ≤ scanUntil) :
    schedule.includes (probe + 60000 * j) = false := by
  induction n generalizing probe j with
  | zero => omega
  | succ n ih =>
    rw [CronSchedule.firstIncluded, if_pos (by omega)] at h
    split at h
    · cases h
    · next hskipped =>
      cases j with
      | zero => simpa using hskipped
      | succ j =>
        have hrest := ih h (Nat.lt_of_succ_lt_succ hj) (by omega)
        rwa [show probe + 60000 * ((j + 1 : ℕ) : ℤ) = probe + 60000 + 60000 * j by omega]

/-- The minute from which `next_occurrence` looks. -/
def nextMinute (after : ℤ) : ℤ := (after / 1000 / 60 + 1) * 60 * 1000

theorem lt_nextMinute (after : ℤ) : after < nextMinute after := by
  unfold nextMinute
  omega

/-- Every later minute is one that is looked at. -/
theorem WholeMinute.eq_add {t after : ℤ} (ht : WholeMinute t) (h : after < t) :
    ∃ j : ℕ, t = nextMinute after + 60000 * j := by
  refine ⟨((t - nextMinute after) / 60000).toNat, ?_⟩
  unfold WholeMinute nextMinute at *
  omega

/-- `next` is the earliest occurrence, as far as `next_occurrence` looks. -/
structure Earliest (schedule : CronSchedule) (after next : ℤ) : Prop where
  later : after < next
  included : schedule.includes next = true
  first : ∀ m, WholeMinute m → after < m → m < next → m ≤ after + 3 * 60 * 60000 →
    schedule.includes m = false

theorem nextOccurrence_earliest {chrono : Chrono} {schedule : CronSchedule} {after candidate : ℤ}
    (hsound : schedule.Sound) (hrange : chrono.inRange (nextMinute after) = true)
    (h : schedule.after after = some candidate) :
    ∃ next, nextOccurrence chrono schedule after = .ok next ∧ Earliest schedule after next := by
  have hlater := hsound.later after candidate h
  simp only [nextOccurrence, h, ← nextMinute.eq_1, if_pos hrange]
  refine ⟨_, rfl, ?_⟩
  cases hscan : schedule.firstIncluded (min candidate (after + 3 * 60 * 60000))
      ((min candidate (after + 3 * 60 * 60000) - nextMinute after) / 60000 + 1).toNat (nextMinute after) with
  | some r =>
    obtain ⟨k, rfl, hle, hincluded, hnone⟩ := firstIncluded_eq_some hscan
    have hminute := lt_nextMinute after
    refine ⟨?_, hincluded, fun m hm hafter hbefore _ => ?_⟩
    · change after < nextMinute after + 60000 * k
      omega
    · obtain ⟨j, rfl⟩ := hm.eq_add hafter
      refine hnone j ?_
      change nextMinute after + 60000 * (j : ℤ) < nextMinute after + 60000 * k at hbefore
      omega
  | none =>
    refine ⟨hlater, hsound.included after candidate h, fun m hm hafter hbefore hnear => ?_⟩
    obtain ⟨j, rfl⟩ := hm.eq_add hafter
    change nextMinute after + 60000 * (j : ℤ) < candidate at hbefore
    exact firstIncluded_eq_none hscan (by omega) (by omega)

theorem lt_of_nextOccurrence {chrono : Chrono} {schedule : CronSchedule} {after next : ℤ} (hsound : schedule.Sound)
    (h : nextOccurrence chrono schedule after = .ok next) : after < next := by
  cases hafter : schedule.after after with
  | none =>
    rw [nextOccurrence, hafter] at h
    cases h
  | some candidate =>
    by_cases hrange : chrono.inRange (nextMinute after) = true
    · obtain ⟨_, hnext, hearliest⟩ := nextOccurrence_earliest hsound hrange hafter
      cases hnext.symm.trans h
      exact hearliest.later
    · simp only [nextOccurrence, hafter, ← nextMinute.eq_1, if_neg hrange] at h
      cases h

/-! ## The loop -/

/-- The loop of `evaluate_schedules` over one target, with the occurrences that it has passed as history. -/
structure CatchUp where
  target : ScheduledTarget
  ledger : Ledger
  passed : List ℤ := []
  broke : Bool := false

/-- An iteration, or what another daemon does to the ledger meanwhile. -/
inductive CatchUpEvent
  | iteration (host : Host)
  | elsewhere (e : ScheduleEvent)

namespace CatchUp
variable (crates : Crates) (chrono : Chrono) (through : ℤ)

/-- The loop has been left. -/
def Over (s : CatchUp) : Prop := s.broke = true ∨ through < s.target.nextDue

instance (s : CatchUp) : Decidable (s.Over through) := inferInstanceAs (Decidable (_ ∨ _))

def evaluated (s : CatchUp) (result : Except String ℤ × Ledger) : CatchUp :=
  match result with
  | (.ok next, ledger) =>
    { target := { s.target with nextDue := next }, ledger := ledger, passed := s.passed ++ [s.target.nextDue] }
  | (.error _, ledger) => { s with ledger := ledger, broke := true }

def iterate (host : Host) (s : CatchUp) : CatchUp :=
  if s.Over through then s else s.evaluated (s.target.evaluateSchedule crates chrono host s.ledger)

def step (s : CatchUp) : CatchUpEvent → CatchUp
  | .iteration host => s.iterate crates chrono through host
  | .elsewhere e => { s with ledger := s.ledger.afterEvent crates chrono e }

def run (s : CatchUp) (events : List CatchUpEvent) : CatchUp := Transition.run (step crates chrono through) s events

def iterations (events : List CatchUpEvent) : ℕ :=
  events.countP fun e => match e with
    | .iteration _ => true
    | .elsewhere _ => false

/-- The next iteration passes the occurrence at which the loop stands. -/
def Passes (host : Host) (s : CatchUp) (next : ℤ) : Prop :=
  ¬ s.Over through ∧ (s.target.evaluateSchedule crates chrono host s.ledger).1 = .ok next

/-- The cursor in the ledger stands where the loop does. -/
def InStep (s : CatchUp) : Prop :=
  ∃ cursor, s.ledger.scheduleCursors.get? (s.target.repository, s.target.workflow) = some cursor ∧
    cursor.fingerprint = s.target.fingerprint ∧ cursor.nextDueAt = s.target.nextDue

variable {crates chrono through} {s : CatchUp} {host : Host}

/-- All that an iteration can do. -/
inductive Does (crates : Crates) (chrono : Chrono) (through : ℤ) (host : Host) (s : CatchUp) : CatchUp → Prop
  | finished (h : s.Over through) : Does crates chrono through host s s
  | passed (next) (h : Passes crates chrono through host s next)
      (hnext : nextOccurrence chrono s.target.schedule s.target.nextDue = .ok next) :
    Does crates chrono through host s
      { target := { s.target with nextDue := next }
        ledger := (s.target.evaluateSchedule crates chrono host s.ledger).2
        passed := s.passed ++ [s.target.nextDue] }
  | failed (h : ¬ s.Over through) :
    Does crates chrono through host s
      { s with ledger := (s.target.evaluateSchedule crates chrono host s.ledger).2, broke := true }

theorem nextOccurrence_of_evaluateSchedule {target : ScheduledTarget} {l : Ledger} {next : ℤ}
    (h : (target.evaluateSchedule crates chrono host l).1 = .ok next) :
    nextOccurrence chrono target.schedule target.nextDue = .ok next := by
  simp only [ScheduledTarget.evaluateSchedule] at h
  split at h
  · cases h
  · next hnext =>
    rw [hnext]
    split at h
    · cases h
    · split at h
      · cases h
      · exact h

theorem does_iterate : Does crates chrono through host s (s.iterate crates chrono through host) := by
  unfold iterate
  split
  · next hover => exact .finished hover
  · next hover =>
    cases hresult : (s.target.evaluateSchedule crates chrono host s.ledger).1 with
    | ok next =>
      have heq : s.target.evaluateSchedule crates chrono host s.ledger =
        (.ok next, (s.target.evaluateSchedule crates chrono host s.ledger).2) := Prod.ext hresult rfl
      rw [heq]
      exact .passed next ⟨hover, hresult⟩ (nextOccurrence_of_evaluateSchedule hresult)
    | error e =>
      have heq : s.target.evaluateSchedule crates chrono host s.ledger =
        (.error e, (s.target.evaluateSchedule crates chrono host s.ledger).2) := Prod.ext hresult rfl
      rw [heq]
      exact .failed hover

/-! ## Runs -/

/-- What holds of the loop since it was entered. -/
structure Kept (crates : Crates) (chrono : Chrono) (through : ℤ) (start s : CatchUp) (events : List CatchUpEvent) :
    Prop where
  target : s.target = { start.target with nextDue := s.target.nextDue }
  chain : (s.passed ++ [s.target.nextDue]).IsChain fun due next =>
    nextOccurrence chrono start.target.schedule due = .ok next
  first : (s.passed ++ [s.target.nextDue]).head? = some start.target.nextDue
  le : ∀ due ∈ s.passed, due ≤ through
  count : s.Over through ∨ start.target.nextDue + iterations events ≤ s.target.nextDue

theorem kept_run {start : CatchUp} (hsound : start.target.schedule.Sound) (hpassed : start.passed = [])
    (events : List CatchUpEvent) : Kept crates chrono through start
      (start.run crates chrono through events) events := by
  induction events using List.reverseRecOn with
  | nil =>
    change Kept crates chrono through start start []
    exact ⟨rfl, by simp [hpassed], by simp [hpassed], by simp [hpassed], .inr (by simp [iterations])⟩
  | append_singleton events e ih =>
    rw [run, Transition.run_append]
    change Kept crates chrono through start (step crates chrono through (start.run crates chrono through events) e) _
    generalize start.run crates chrono through events = s at ih ⊢
    obtain ⟨htarget, hchain, hfirst, hle, hcount⟩ := ih
    cases e with
    | elsewhere e =>
      refine ⟨htarget, hchain, hfirst, hle, ?_⟩
      simpa [iterations, Over, step] using hcount
    | iteration host =>
      have hcountP : iterations (events ++ [.iteration host]) = iterations events + 1 := by simp [iterations]
      have hdoes : Does crates chrono through host s (s.iterate crates chrono through host) := does_iterate
      change Kept crates chrono through start (s.iterate crates chrono through host) _
      generalize s.iterate crates chrono through host = s' at hdoes ⊢
      cases hdoes with
      | finished hover => exact ⟨htarget, hchain, hfirst, hle, .inl hover⟩
      | failed hover => exact ⟨htarget, hchain, hfirst, hle, .inl (.inl rfl)⟩
      | passed next hpasses hnext =>
        have hschedule : s.target.schedule = start.target.schedule := by rw [htarget]
        have hlater : s.target.nextDue < next := lt_of_nextOccurrence (hschedule ▸ hsound) hnext
        have hnotover := hpasses.1
        refine ⟨?_, ?_, ?_, ?_, .inr ?_⟩
        · change ({ s.target with nextDue := next } : ScheduledTarget) = { start.target with nextDue := next }
          rw [htarget]
        · rw [List.isChain_append]
          refine ⟨hchain, .singleton _, ?_⟩
          simp only [List.getLast?_append, List.getLast?_singleton, Option.some_or, Option.mem_some_iff,
            List.head?_cons,
            forall_eq']
          exact hschedule ▸ hnext
        · rw [List.head?_append, hfirst]
          rfl
        · intro due hdue
          rcases List.mem_append.mp hdue with hbefore | hlast
          · exact hle due hbefore
          · rw [List.mem_singleton.mp hlast]
            exact le_of_not_gt fun h => hnotover (.inr h)
        · have hcount := hcount.resolve_left hnotover
          rw [hcountP]
          push_cast
          change _ ≤ next
          omega

/-- The occurrences are passed in their order. -/
theorem Kept.pairwise {start : CatchUp} {events : List CatchUpEvent} (hsound : start.target.schedule.Sound)
    (h : Kept crates chrono through start s events) : (s.passed ++ [s.target.nextDue]).Pairwise (· < ·) := by
  refine List.isChain_iff_pairwise.mp (h.chain.imp fun due next hnext => ?_)
  exact lt_of_nextOccurrence hsound hnext

/-! ## Enqueueing -/

/-- There is exactly one task for the instant. -/
def Enqueued (chrono : Chrono) (target : ScheduledTarget) (due : ℤ) (l : Ledger) : Prop :=
  ∃ task ∈ l.tasks, Ledger.IsForInstant chrono target.repository target.workflow due task ∧
    ∀ other ∈ l.tasks, Ledger.IsForInstant chrono target.repository target.workflow due other → other = task

/-- The ledger is one that a run of daemons leaves. -/
def Reached (crates : Crates) (chrono : Chrono) (l : Ledger) : Prop :=
  ∃ events, l = Ledger.empty.runSchedules crates chrono events

theorem Reached.afterEvent {l : Ledger} (h : Reached crates chrono l) (e : ScheduleEvent) :
    Reached crates chrono (l.afterEvent crates chrono e) := by
  obtain ⟨events, rfl⟩ := h
  refine ⟨events ++ [e], ?_⟩
  rw [Ledger.runSchedules, Ledger.runSchedules, Transition.run_append]
  rfl

theorem Reached.uniqueKeys {l : Ledger} (h : Reached crates chrono l) : l.UniqueKeys := by
  obtain ⟨events, rfl⟩ := h
  obtain ⟨calls, hcalls⟩ := Ledger.runSchedules_eq crates chrono Ledger.empty events
  rw [hcalls]
  exact Ledger.uniqueKeys_reachable crates calls

theorem Reached.run {start : CatchUp} (h : Reached crates chrono start.ledger) (events : List CatchUpEvent) :
    Reached crates chrono (start.run crates chrono through events).ledger := by
  induction events generalizing start with
  | nil => exact h
  | cons e events ih =>
    change Reached crates chrono ((start.step crates chrono through e).run crates chrono through events).ledger
    apply ih
    cases e with
    | elsewhere e => exact h.afterEvent e
    | iteration host =>
      have hdoes : Does crates chrono through host start (start.iterate crates chrono through host) := does_iterate
      change Reached crates chrono (start.iterate crates chrono through host).ledger
      generalize start.iterate crates chrono through host = s' at hdoes ⊢
      cases hdoes with
      | finished _ => exact h
      | passed next _ _ => exact h.afterEvent (.evaluateSchedule host start.target)
      | failed _ => exact h.afterEvent (.evaluateSchedule host start.target)

theorem ledger_of_evaluateSchedule {target : ScheduledTarget} {l : Ledger} {next : ℤ}
    (h : (target.evaluateSchedule crates chrono host l).1 = .ok next) : ∃ a,
      l.enqueueScheduledOccurrence crates host
          (.scheduled target.repository target.workflow (chrono.toRfc3339 target.nextDue))
          (scheduledAtPayload crates (chrono.toRfc3339 target.nextDue)) target.fingerprint target.nextDue next =
        .ok (a, (target.evaluateSchedule crates chrono host l).2) := by
  simp only [ScheduledTarget.evaluateSchedule] at h ⊢
  split at h
  · cases h
  · next hnext =>
    split at h
    · cases h
    · next hvalid =>
      split at h
      · cases h
      · next hcall =>
        cases h
        exact ⟨_, hcall⟩

theorem iterate_of_passes {next : ℤ} (h : Passes crates chrono through host s next) :
    s.iterate crates chrono through host =
      { target := { s.target with nextDue := next }
        ledger := (s.target.evaluateSchedule crates chrono host s.ledger).2
        passed := s.passed ++ [s.target.nextDue] } := by
  rw [iterate, if_neg h.1, show s.target.evaluateSchedule crates chrono host s.ledger =
    (.ok next, (s.target.evaluateSchedule crates chrono host s.ledger).2) from Prod.ext h.2 rfl]
  rfl

/-- An iteration in step with the ledger enqueues the occurrence, and stays in step. -/
theorem InStep.iterate {next : ℤ} (h : s.InStep) (hreached : Reached crates chrono s.ledger)
    (hpasses : Passes crates chrono through host s next) :
    (s.iterate crates chrono through host).InStep ∧
      Enqueued chrono s.target s.target.nextDue (s.iterate crates chrono through host).ledger := by
  obtain ⟨cursor, hcursor, hfingerprint, hdue⟩ := h
  obtain ⟨a, hcall⟩ := ledger_of_evaluateSchedule hpasses.2
  rw [iterate_of_passes hpasses]
  rcases Ledger.enqueueScheduledOccurrence_cases hcall with
    ⟨-, hsuperseded⟩ | ⟨cursor', hcursor', hfingerprint', -, -, hget, -, task, htask, hkey⟩
  · exact (hsuperseded cursor hcursor ⟨hfingerprint, hdue⟩).elim
  · refine ⟨⟨_, hget, hfingerprint', rfl⟩, task, htask, hkey, fun other hother hkey' => ?_⟩
    have hunique := (hreached.afterEvent (.evaluateSchedule host s.target)).uniqueKeys
    exact hunique other hother task htask (Eq.trans hkey' hkey.symm)

/-- A task that is there stays the only one for its instant. -/
theorem Enqueued.afterEvent {target : ScheduledTarget} {due : ℤ} {l : Ledger} (h : Enqueued chrono target due l)
    (hreached : Reached crates chrono l) (e : ScheduleEvent) :
    Enqueued chrono target due (l.afterEvent crates chrono e) := by
  obtain ⟨task, htask, hkey, -⟩ := h
  obtain ⟨calls, hcalls⟩ := Ledger.afterEvent_eq crates chrono l e
  obtain ⟨kept, hget, hfacts⟩ := (Ledger.runCalls_changes crates l calls).tasks _ _ (KeyedTable.get?_of_mem htask)
  have hkept : kept ∈ (l.afterEvent crates chrono e).tasks := hcalls ▸ KeyedTable.mem_of_get? hget
  have hkey' : Ledger.IsForInstant chrono target.repository target.workflow due kept :=
    (congrArg Prod.fst hfacts).trans hkey
  refine ⟨kept, hkept, hkey', fun other hother hother' => ?_⟩
  exact (hreached.afterEvent e).uniqueKeys other hother kept hkept (hother'.trans hkey'.symm)

/-- The loop is in step with the ledger whenever it iterates. -/
def StaysInStep (crates : Crates) (chrono : Chrono) (through : ℤ) (start : CatchUp)
    (events : List CatchUpEvent) : Prop :=
  ∀ before host, before ++ [.iteration host] <+: events → (start.run crates chrono through before).InStep

theorem enqueued_run {start : CatchUp} (hsound : start.target.schedule.Sound) (hpassed : start.passed = [])
    (hreached : Reached crates chrono start.ledger) {events : List CatchUpEvent}
    (hstep : StaysInStep crates chrono through start events) :
    ∀ due ∈ (start.run crates chrono through events).passed,
      Enqueued chrono start.target due (start.run crates chrono through events).ledger := by
  induction events using List.reverseRecOn with
  | nil =>
    change ∀ due ∈ start.passed, _
    simp [hpassed]
  | append_singleton events e ih =>
    have ih := ih fun before host hbefore => hstep before host (hbefore.trans (List.prefix_append _ _))
    have hkept : Kept crates chrono through start (start.run crates chrono through events) events :=
      kept_run hsound hpassed events
    have hreached : Reached crates chrono (start.run crates chrono through events).ledger := hreached.run events
    have hcurrent := fun host (he : e = .iteration host) => hstep events host (he ▸ List.prefix_rfl)
    have hrun : start.run crates chrono through (events ++ [e]) =
        step crates chrono through (start.run crates chrono through events) e := by
      rw [run, Transition.run_append]
      rfl
    rw [hrun]
    generalize start.run crates chrono through events = s at ih hkept hreached hcurrent ⊢
    cases e with
    | elsewhere e => exact fun due hdue => (ih due hdue).afterEvent hreached e
    | iteration host =>
      have hdoes : Does crates chrono through host s (s.iterate crates chrono through host) := does_iterate
      have hpasses : ∀ next, Passes crates chrono through host s next →
          Enqueued chrono start.target s.target.nextDue (s.iterate crates chrono through host).ledger := by
        intro next h
        have henqueued := ((hcurrent host rfl).iterate hreached h).2
        rw [hkept.target] at henqueued
        exact henqueued
      change ∀ due ∈ (s.iterate crates chrono through host).passed,
        Enqueued chrono start.target due (s.iterate crates chrono through host).ledger
      generalize s.iterate crates chrono through host = s' at hdoes hpasses ⊢
      cases hdoes with
      | finished hover => exact ih
      | failed hover => exact fun due hdue => (ih due hdue).afterEvent hreached (.evaluateSchedule host s.target)
      | passed next hnext _ =>
        intro due hdue
        rcases List.mem_append.mp hdue with hbefore | hlast
        · exact (ih due hbefore).afterEvent hreached (.evaluateSchedule host s.target)
        · rw [List.mem_singleton.mp hlast]
          exact hpasses next hnext

end CatchUp

/-- The next occurrence is the earliest one, and the loop over it advances, ends and enqueues. -/
structure SchedulesAdvance (crates : Crates) (chrono : Chrono) (schedule : CronSchedule) : Prop where
  earliest : ∀ after candidate, schedule.after after = some candidate →
    ∃ next, nextOccurrence chrono schedule after = .ok next ∧ Earliest schedule after next
  advances : ∀ (s : CatchUp) through host next, s.target.schedule = schedule →
    s.Passes crates chrono through host next →
    s.target.nextDue < (s.iterate crates chrono through host).target.nextDue
  /-- So many iterations, whatever happens to the ledger meanwhile, and the loop has been left. -/
  ends : ∀ (start : CatchUp) through, start.target.schedule = schedule → start.passed = [] →
    ∃ n, ∀ events, n ≤ CatchUp.iterations events → (start.run crates chrono through events).Over through
  /-- One call for each of the occurrences from the first to the last, in order. -/
  once : ∀ (start : CatchUp) through events, start.target.schedule = schedule → start.passed = [] →
    CatchUp.Kept crates chrono through start (start.run crates chrono through events) events ∧
      (start.run crates chrono through events).passed.Pairwise (· < ·)
  /-- Each occurrence that is passed has then exactly one task. -/
  enqueues : ∀ (start : CatchUp) through events, start.target.schedule = schedule → start.passed = [] →
    CatchUp.Reached crates chrono start.ledger → start.StaysInStep crates chrono through events →
    ∀ due ∈ (start.run crates chrono through events).passed,
      CatchUp.Enqueued chrono start.target due (start.run crates chrono through events).ledger
  /-- Nobody but another daemon takes the loop out of step. -/
  stays : ∀ (s : CatchUp) through host next, s.InStep → CatchUp.Reached crates chrono s.ledger →
    s.Passes crates chrono through host next → (s.iterate crates chrono through host).InStep

/-- **The next occurrence is the earliest one and schedules always advance.** -/
theorem nextOccurrence_advances {schedule : CronSchedule} (crates : Crates) (chrono : Chrono) (hsound : schedule.Sound)
    (hrange : ∀ after candidate, schedule.after after = some candidate → chrono.inRange (nextMinute after) = true) :
    SchedulesAdvance crates chrono schedule where
  earliest after candidate h := nextOccurrence_earliest hsound (hrange after candidate h) h
  advances := by
    rintro s through host next rfl hpasses
    rw [CatchUp.iterate_of_passes hpasses]
    exact lt_of_nextOccurrence hsound (CatchUp.nextOccurrence_of_evaluateSchedule hpasses.2)
  ends := by
    rintro start through rfl hpassed
    refine ⟨(through - start.target.nextDue + 1).toNat, fun events hn => ?_⟩
    rcases (CatchUp.kept_run hsound hpassed events).count with hover | hcount
    · exact hover
    · exact .inr (by omega)
  once := by
    rintro start through events rfl hpassed
    have hkept : CatchUp.Kept crates chrono through start (start.run crates chrono through events) events :=
      CatchUp.kept_run hsound hpassed events
    exact ⟨hkept, (List.pairwise_append.mp (hkept.pairwise hsound)).1⟩
  enqueues := by
    rintro start through events rfl hpassed hreached hstep
    exact CatchUp.enqueued_run hsound hpassed hreached hstep
  stays s through host next hstep hreached hpasses := (hstep.iterate hreached hpasses).1

/-- `0 0 * * * *`, up to the year 2100. -/
def hourly : CronSchedule where
  after t := if 0 ≤ t ∧ t < 4102444800000 then some ((t / 3600000 + 1) * 3600000) else none
  includes t := t % 3600000 = 0

/-- A number with zeros before it, up to a width. -/
def zeroPadded (width n : ℕ) : String :=
  "".pushn '0' (width - (toString n).length) ++ toString n

/-- The year, the month and the day that lie so many days after the first of January 1970. -/
def civilDate (days : ℤ) : ℤ × ℕ × ℕ :=
  -- years that start in March, in eras of 400 of them; the first era starts in the year 0
  let shifted := days + 719468
  let dayOfEra := (shifted % 146097).toNat
  let yearOfEra := (dayOfEra - dayOfEra / 1460 + dayOfEra / 36524 - dayOfEra / 146096) / 365
  let dayOfYear := dayOfEra - (365 * yearOfEra + yearOfEra / 4 - yearOfEra / 100)
  let monthFromMarch := (5 * dayOfYear + 2) / 153
  let month := if monthFromMarch < 10 then monthFromMarch + 3 else monthFromMarch - 9
  let year := shifted / 146097 * 400 + yearOfEra
  (if month ≤ 2 then year + 1 else year, month, dayOfYear - (153 * monthFromMarch + 2) / 5 + 1)

/-- A year has four digits, or a sign. -/
def yearText (year : ℤ) : String :=
  if 0 ≤ year ∧ year ≤ 9999 then zeroPadded 4 year.toNat
  else (if year < 0 then "-" else "+") ++ zeroPadded 4 year.natAbs

/-- The years that `chrono` has, and the text of an instant in Greenwich. -/
def exampleChrono : Chrono where
  toRfc3339 t :=
    let (year, month, day) := civilDate (t / 86400000)
    let second := (t / 1000 % 86400).toNat
    yearText year ++ "-" ++ zeroPadded 2 month ++ "-" ++ zeroPadded 2 day ++ "T" ++
      zeroPadded 2 (second / 3600) ++ ":" ++ zeroPadded 2 (second / 60 % 60) ++ ":" ++
      zeroPadded 2 (second % 60) ++ "Z"
  inRange t := -8334601228800000 ≤ t && t ≤ 8210266876799999

example : exampleChrono.toRfc3339 951868799999 = "2000-02-29T23:59:59Z" := by decide +kernel

theorem nextOccurrence_advances_hourly : SchedulesAdvance exampleCrates exampleChrono hourly := by
  refine nextOccurrence_advances exampleCrates exampleChrono ⟨?_, ?_⟩ ?_
  all_goals
    intro after candidate h
    simp only [hourly, Option.ite_none_right_eq_some, Option.some.injEq] at h
    obtain ⟨hrange, rfl⟩ := h
  · omega
  · simp [hourly]
  · simp [exampleChrono, nextMinute]
    omega

end FlashyFactory
