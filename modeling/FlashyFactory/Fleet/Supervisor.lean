import FlashyFactory.Fleet.Admission
import FlashyFactory.Lib.Transition

/-! # One member fails

`FleetSupervisor::run` after startup: a task for every member, which runs `run_loop` again and again,
and the poller. All share one cancellation token, and the way out of the loop of `run_loop` cancels
it. Only a failure before the daemon owner is registered spares the others. -/

namespace FlashyFactory

/-- Where the task of a member stands. -/
inductive MemberTask
  /-- It failed, and waits for `retry_at`. -/
  | backingOff
  /-- `prepare_fleet` runs. -/
  | preparing
  /-- `run_loop` runs, and has not registered its owner. -/
  | starting
  /-- `run_loop` is in its loop, and the heartbeat of its owner beats. -/
  | looping
  /-- `run_loop` has left its loop, and waits for its runs. -/
  | draining
  /-- The task has returned. -/
  | gone
deriving DecidableEq, Repr

structure Supervisor (n : ℕ) where
  members : Fin n → MemberTask
  admission : FleetAdmissionState n
  runs : Fin n → ℕ := fun _ => 0
  polling : Bool := true
  cancelled : Bool := false

inductive SupervisorStep (n : ℕ)
  /-- `retry_at` has come. -/
  | retry (i : Fin n)
  | prepared (i : Fin n) (ok : Bool)
  | started (i : Fin n) (ok : Bool)
  /-- `dispatch_available` asks for a permit; with one, it may find a task to claim. -/
  | dispatch (i : Fin n) (claims : Bool)
  | runEnds (i : Fin n)
  /-- A recovery, dispatch or pull-request step of the loop fails. -/
  | loopFails (i : Fin n)
  | heartbeatFails (i : Fin n)
  /-- The loop sees that the token is cancelled. -/
  | stops (i : Fin n)
  | drained (i : Fin n)
  | pollerStops
deriving DecidableEq, Repr

/-- The member whose step it is. -/
def SupervisorStep.member : SupervisorStep n → Option (Fin n)
  | retry i | prepared i _ | started i _ | dispatch i _ | runEnds i | loopFails i | heartbeatFails i |
    stops i | drained i => some i
  | pollerStops => none

namespace Supervisor
variable {n : ℕ}

def setMember (s : Supervisor n) (i : Fin n) (m : MemberTask) : Supervisor n :=
  { s with members := Function.update s.members i m }

/-- What the task of a member does when `run_loop` or `prepare_fleet` fails. -/
def failed (s : Supervisor n) (i : Fin n) : Supervisor n :=
  s.setMember i (if s.cancelled then .gone else .backingOff)

/-- One step; `wellFormed` are the runtimes for which `daemon_for_runtime` succeeds. -/
def step (wellFormed : Fin n → Bool) (s : Supervisor n) : SupervisorStep n → Supervisor n
  | .retry i =>
    if s.members i = .backingOff then
      s.setMember i (if s.cancelled || !wellFormed i then .gone else .preparing)
    else s
  | .prepared i ok =>
    if s.members i = .preparing then
      if ok then s.setMember i .starting else s.failed i
    else s
  | .started i ok =>
    if s.members i = .starting then
      if ok then s.setMember i .looping else s.failed i
    else s
  | .dispatch i claims =>
    if s.members i = .looping then
      match s.admission.tryAcquire i with
      | (true, admission) =>
        if claims then
          { s with admission := admission, runs := Function.update s.runs i (s.runs i + 1) }
        else { s with admission := admission.giveBack }
      | (false, admission) => { s with admission := admission }
    else s
  | .runEnds i =>
    if 0 < s.runs i then
      { s with
        admission := s.admission.giveBack
        runs := Function.update s.runs i (s.runs i - 1) }
    else s
  | .loopFails i =>
    if s.members i = .looping then { s.setMember i .draining with cancelled := true } else s
  | .heartbeatFails i => if s.members i = .looping then { s with cancelled := true } else s
  | .stops i => if s.members i = .looping ∧ s.cancelled then s.setMember i .draining else s
  | .drained i => if s.members i = .draining ∧ s.runs i = 0 then s.failed i else s
  | .pollerStops => if s.cancelled then { s with polling := false } else s

/-- The fleet goes on: the token is not cancelled, the poller runs, every member runs or will run
again, and only members in their loop wait for permits. -/
structure GoesOn (wellFormed : Fin n → Bool) (s : Supervisor n) : Prop where
  token : s.cancelled = false
  poller : s.polling = true
  members : ∀ i, wellFormed i = true → s.members i ≠ .draining ∧ s.members i ≠ .gone
  turns : ∀ i, s.admission.waiting i = true → s.members i = .looping

/-- A member that failed is prepared again when its `retry_at` comes. -/
def Retries (wellFormed : Fin n → Bool) (s : Supervisor n) : Prop :=
  ∀ i, wellFormed i = true → s.members i = .backingOff →
    (s.step wellFormed (.retry i)).members i = .preparing

/-- A step leaves the tasks and the active runs of the members that it is not of as they are. -/
def Spares (wellFormed : Fin n → Bool) (s : Supervisor n) (e : SupervisorStep n) : Prop :=
  ∀ j, e.member ≠ some j → (s.step wellFormed e).members j = s.members j ∧
    (s.step wellFormed e).runs j = s.runs j

/-- No `run_loop` fails after it has registered its owner. -/
def FailsEarly (s : Supervisor n) : SupervisorStep n → Prop
  | .loopFails i | .heartbeatFails i => s.members i ≠ .looping
  | _ => True

variable {wellFormed : Fin n → Bool} {s : Supervisor n} {e : SupervisorStep n}

theorem setMember_of_ne (hij : j ≠ i) : (s.setMember i m).members j = s.members j :=
  Function.update_of_ne hij _ _

theorem spares (wellFormed : Fin n → Bool) (s : Supervisor n) (e : SupervisorStep n) :
    Spares wellFormed s e := by
  intro j he
  cases e with
  | pollerStops =>
    rw [step]
    split <;> exact ⟨rfl, rfl⟩
  | dispatch i claims =>
    have hij : j ≠ i := fun h => he (congrArg some h.symm)
    rw [step]
    split
    · split
      · split
        · exact ⟨rfl, Function.update_of_ne hij _ _⟩
        · exact ⟨rfl, rfl⟩
      · exact ⟨rfl, rfl⟩
    · exact ⟨rfl, rfl⟩
  | runEnds i =>
    have hij : j ≠ i := fun h => he (congrArg some h.symm)
    rw [step]
    split
    · exact ⟨rfl, Function.update_of_ne hij _ _⟩
    · exact ⟨rfl, rfl⟩
  | retry i | prepared i ok | started i ok | loopFails i | heartbeatFails i | stops i | drained i =>
    have hij : j ≠ i := fun h => he (congrArg some h.symm)
    simp only [step, failed]
    repeat' split
    all_goals first | exact ⟨rfl, rfl⟩ | exact ⟨setMember_of_ne hij, rfl⟩

theorem GoesOn.retries (h : GoesOn wellFormed s) : Retries wellFormed s := by
  intro i hformed hi
  rw [step, if_pos hi]
  simp [h.token, hformed, Supervisor.setMember]

/-- A member outside its loop goes on to anything but its end. -/
theorem GoesOn.setMember (h : GoesOn wellFormed s) (hi : s.members i ≠ .looping)
    (hm : wellFormed i = true → m ≠ .draining ∧ m ≠ .gone) : GoesOn wellFormed (s.setMember i m) := by
  refine ⟨h.token, h.poller, fun j hj => ?_, fun j hj => ?_⟩
  · by_cases hji : j = i
    · subst hji
      simpa [Supervisor.setMember] using hm hj
    · simpa [Supervisor.setMember, hji] using h.members j hj
  · have hlooping := h.turns j hj
    have hji : j ≠ i := by
      rintro rfl
      exact hi hlooping
    simpa [Supervisor.setMember, hji] using hlooping

theorem GoesOn.failed (h : GoesOn wellFormed s) (hi : s.members i ≠ .looping) :
    GoesOn wellFormed (s.failed i) := by
  refine h.setMember hi fun _ => ?_
  simp [h.token]

theorem GoesOn.dispatch (h : GoesOn wellFormed s) (claims : Bool) :
    GoesOn wellFormed (s.step wellFormed (.dispatch i claims)) := by
  rw [step]
  split
  · next hlooping =>
    have hturns : ∀ j, (s.admission.tryAcquire i).2.waiting j = true → s.members j = .looping := by
      intro j hj
      rcases FleetAdmissionState.waiting_tryAcquire hj with rfl | hwaits
      · exact hlooping
      · exact h.turns j hwaits
    split
    · next admission hacquire =>
      rw [hacquire] at hturns
      split
      · exact ⟨h.token, h.poller, h.members, hturns⟩
      · exact ⟨h.token, h.poller, h.members, hturns⟩
    · next admission hacquire =>
      rw [hacquire] at hturns
      exact ⟨h.token, h.poller, h.members, hturns⟩
  · exact h

/-- **One step: the fleet goes on unless a `run_loop` fails late.** -/
theorem goesOn_step (h : GoesOn wellFormed s) : GoesOn wellFormed (s.step wellFormed e) ↔ s.FailsEarly e := by
  cases e with
  | retry i =>
    refine iff_of_true ?_ trivial
    rw [step]
    split
    · next hm =>
      refine h.setMember (by simp [hm]) fun hformed => ?_
      simp [h.token, hformed]
    · exact h
  | prepared i ok =>
    refine iff_of_true ?_ trivial
    rw [step]
    split
    · next hm =>
      cases ok with
      | true => exact h.setMember (by simp [hm]) fun _ => by decide
      | false => exact h.failed (by simp [hm])
    · exact h
  | started i ok =>
    refine iff_of_true ?_ trivial
    rw [step]
    split
    · next hm =>
      cases ok with
      | true => exact h.setMember (by simp [hm]) fun _ => by decide
      | false => exact h.failed (by simp [hm])
    · exact h
  | dispatch i claims => exact iff_of_true (h.dispatch claims) trivial
  | runEnds i =>
    refine iff_of_true ?_ trivial
    rw [step]
    split
    · exact ⟨h.token, h.poller, h.members, h.turns⟩
    · exact h
  | loopFails i =>
    by_cases hm : s.members i = .looping
    · refine iff_of_false (fun hgoes => ?_) fun hearly => hearly hm
      have htoken := hgoes.token
      simp [step, hm] at htoken
    · refine iff_of_true ?_ hm
      rwa [step, if_neg hm]
  | heartbeatFails i =>
    by_cases hm : s.members i = .looping
    · refine iff_of_false (fun hgoes => ?_) fun hearly => hearly hm
      have htoken := hgoes.token
      simp [step, hm] at htoken
    · refine iff_of_true ?_ hm
      rwa [step, if_neg hm]
  | stops i =>
    refine iff_of_true ?_ trivial
    rwa [step, if_neg (by simp [h.token])]
  | drained i =>
    refine iff_of_true ?_ trivial
    rw [step]
    split
    · next hm => exact h.failed (by simp [hm.1])
    · exact h
  | pollerStops =>
    refine iff_of_true ?_ trivial
    rwa [step, if_neg (by simp [h.token])]

/-- A fleet after startup: the tasks of the members that could be prepared run `run_loop`, and those
of the others wait. -/
def afterStartup (healthy : Fin n → Bool) (limit : ℕ) (cursor : Fin n) : Supervisor n where
  members i := if healthy i then .starting else .backingOff
  admission := ⟨limit, cursor, fun _ => false⟩

theorem goesOn_afterStartup (wellFormed healthy : Fin n → Bool) (limit : ℕ) (cursor : Fin n) :
    GoesOn wellFormed (afterStartup healthy limit cursor) := by
  refine ⟨rfl, rfl, fun i _ => ?_, fun i hwaits => by cases hwaits⟩
  cases hi : healthy i <;> simp [afterStartup, hi]

/-- **A fleet goes on exactly as long as no `run_loop` fails late.** -/
theorem fleet_goes_on_iff (wellFormed healthy : Fin n → Bool) (limit : ℕ) (cursor : Fin n)
    (events : List (SupervisorStep n)) :
    (∀ before late, events = before ++ late →
      let s := Transition.run (step wellFormed) (afterStartup healthy limit cursor) before
      GoesOn wellFormed s ∧ Retries wellFormed s ∧ ∀ e ∈ late.head?, Spares wellFormed s e) ↔
      Transition.Meets (step wellFormed) FailsEarly (afterStartup healthy limit cursor) events := by
  rw [← Transition.invariant_iff_meets (P := GoesOn wellFormed) (fun _ _ => goesOn_step)
    (goesOn_afterStartup wellFormed healthy limit cursor)]
  constructor
  · intro h before late hevents
    exact (h before late hevents).1
  · intro h before late hevents
    have hgoes := h before late hevents
    exact ⟨hgoes, hgoes.retries, fun e _ => spares wellFormed _ e⟩

/-- A recovery step of one member fails, and the other one is told to stop. -/
theorem fleet_taken_down : ¬ ∀ (n : ℕ) (wellFormed healthy : Fin n → Bool) (limit : ℕ) (cursor : Fin n)
    (events : List (SupervisorStep n)), 2 ≤ n → (∀ i, wellFormed i = true) → 0 < limit →
      GoesOn wellFormed
        (Transition.run (step wellFormed) (afterStartup healthy limit cursor) events) := by
  intro h
  have hgoes := h 2 (fun _ => true) (fun _ => true) 1 0 [.started 0 true, .started 1 true, .loopFails 0]
    le_rfl (fun _ => rfl) (by decide)
  have htoken := hgoes.token
  revert htoken
  decide

end Supervisor

end FlashyFactory
