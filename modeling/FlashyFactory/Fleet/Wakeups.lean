import FlashyFactory.Fleet.Admission
import FlashyFactory.Lib.Transition

/-! # Wakeups of `FleetAdmission::acquire`

`acquire` looks under the lock whether it is its turn, and only then creates the future that
`notify_waiters` wakes; a wakeup in between is lost. A grant that leaves a permit free wakes nobody
at all. The steps here are one lock section or one registration each. -/

namespace FlashyFactory

/-- Where the call of `acquire` for a repository stands. -/
inductive Acquiring
  | outside
  /-- It goes on to `try_acquire`. -/
  | trying
  /-- It was refused, and goes on to create its `Notified`. -/
  | refused
  /-- It awaits its `Notified`. -/
  | asleep (woken : Bool)
deriving DecidableEq, Repr

/-- `notify_waiters` wakes the `Notified` that exist. -/
def Acquiring.notified : Acquiring → Acquiring
  | asleep _ => asleep true
  | c => c

structure Acquires (n : ℕ) where
  state : FleetAdmissionState n
  calls : Fin n → Acquiring := fun _ => .outside
  /-- The permits that are out. -/
  permits : ℕ := 0
  /-- The threads that changed the state under the lock and go on to `notify_waiters`. -/
  notifying : ℕ := 0

inductive AcquireStep (n : ℕ)
  | enter (i : Fin n)
  | attempt (i : Fin n)
  | register (i : Fin n)
  | resume (i : Fin n)
  /-- The call is cancelled, and `cancel_wait` has the lock. -/
  | cancel (i : Fin n)
  /-- A permit is dropped, and `drop` has the lock. -/
  | dropPermit
  | notify
deriving DecidableEq, Repr

namespace Acquires
variable {n : ℕ}

def setCall (s : Acquires n) (i : Fin n) (c : Acquiring) : Acquires n :=
  { s with calls := Function.update s.calls i c }

def step (s : Acquires n) : AcquireStep n → Acquires n
  | .enter i => if s.calls i = .outside then s.setCall i .trying else s
  | .attempt i =>
    if s.calls i = .trying then
      match s.state.tryAcquire i with
      | (true, state) => { s.setCall i .outside with state := state, permits := s.permits + 1 }
      | (false, state) => { s.setCall i .refused with state := state }
    else s
  | .register i => if s.calls i = .refused then s.setCall i (.asleep false) else s
  | .resume i => if s.calls i = .asleep true then s.setCall i .trying else s
  | .cancel i => match s.calls i with
    | .asleep _ =>
      { s.setCall i .outside with state := s.state.cancelWait i, notifying := s.notifying + 1 }
    | _ => s
  | .dropPermit =>
    if 0 < s.permits then
      { s with state := s.state.giveBack, permits := s.permits - 1, notifying := s.notifying + 1 }
    else s
  | .notify =>
    if 0 < s.notifying then
      { s with calls := fun i => (s.calls i).notified, notifying := s.notifying - 1 }
    else s

/-- A permit is free, and its turn is `i`'s. -/
def IsTurn (s : Acquires n) (i : Fin n) : Prop :=
  0 < s.state.available ∧ s.state.nextWaitingRepository = some i

/-- The repository that is next in turn sleeps, and nobody is about to wake it. -/
def LostWakeup (s : Acquires n) : Prop :=
  ∃ i, s.IsTurn i ∧ s.calls i = .asleep false ∧ s.notifying = 0

/-- `i` goes to sleep when it is its turn, and the wakeup is over. -/
def RegistersLate (s : Acquires n) (i : Fin n) : Prop :=
  s.calls i = .refused ∧ s.IsTurn i ∧ s.notifying = 0

/-- `i` is granted a permit and leaves another one free, and the next in turn sleeps. -/
def LeavesSleeper (s : Acquires n) (i : Fin n) : Prop :=
  s.calls i = .trying ∧ s.state.Grants i ∧ s.notifying = 0 ∧ 1 < s.state.available ∧
    ∃ j, s.calls j = .asleep false ∧
      RoundRobin.next (RoundRobin.behind i) (Function.update s.state.waiting i false) = some j

/-- The step is neither. -/
def Wakes (s : Acquires n) : AcquireStep n → Prop
  | .register i => ¬ s.RegistersLate i
  | .attempt i => ¬ s.LeavesSleeper i
  | _ => True

instance (s : Acquires n) (i : Fin n) : Decidable (s.IsTurn i) := inferInstanceAs (Decidable (_ ∧ _))
instance (s : Acquires n) : Decidable s.LostWakeup := inferInstanceAs (Decidable (∃ _, _ ∧ _ ∧ _))

variable {s : Acquires n} {e : AcquireStep n}

/-- What a wakeup was lost by before. -/
theorem LostWakeup.mono {s' : Acquires n} (h : s'.LostWakeup)
    (hcalls : ∀ j, s'.calls j = .asleep false → s.calls j = .asleep false)
    (hturn : ∀ j, s'.calls j = .asleep false → s'.IsTurn j → s.IsTurn j)
    (hnotifying : s'.notifying = s.notifying) : s.LostWakeup := by
  obtain ⟨j, hj, hasleep, hnone⟩ := h
  exact ⟨j, hturn j hasleep hj, hcalls j hasleep, hnotifying.symm.trans hnone⟩

/-- A call that is not put to sleep loses no wakeup. -/
theorem lostWakeup_setCall (h : ¬ s.LostWakeup) (hc : c ≠ .asleep false) :
    ¬ (s.setCall i c).LostWakeup := by
  refine fun hlost => h (hlost.mono (fun j hj => ?_) (fun _ _ hturn => hturn) rfl)
  by_cases hji : j = i
  · simp only [setCall, hji, Function.update_self] at hj
    exact absurd hj hc
  · simpa [setCall, hji] using hj

theorem lostWakeup_register (h : ¬ s.LostWakeup) (hrefused : s.calls i = .refused) :
    (s.setCall i (.asleep false)).LostWakeup ↔ s.RegistersLate i := by
  constructor
  · rintro ⟨j, hturn, hasleep, hnone⟩
    by_cases hji : j = i
    · exact ⟨hrefused, hji ▸ hturn, hnone⟩
    · exact absurd ⟨j, hturn, by simpa [setCall, hji] using hasleep, hnone⟩ h
  · rintro ⟨-, hturn, hnone⟩
    exact ⟨i, hturn, by simp [setCall], hnone⟩

/-- A refused call leaves the turn to whom it belongs. -/
theorem lostWakeup_refused (h : ¬ s.LostWakeup) :
    ¬ ({ s.setCall i .refused with state := s.state.markWaiting i } : Acquires n).LostWakeup := by
  have hasleep : ∀ j, (s.setCall i .refused).calls j = .asleep false →
      j ≠ i ∧ s.calls j = .asleep false := by
    intro j hj
    by_cases hji : j = i
    · simp [setCall, hji] at hj
    · exact ⟨hji, by simpa [setCall, hji] using hj⟩
  refine fun hlost => h (hlost.mono (fun j hj => (hasleep j hj).2) (fun j hj hturn => ?_) rfl)
  obtain ⟨hfree, hnext⟩ := hturn
  have hne := (hasleep j hj).1
  obtain ⟨hwaits, hnearest⟩ := RoundRobin.next_eq_some_iff.mp hnext
  refine ⟨hfree, RoundRobin.next_eq_some_iff.mpr ⟨?_, fun k hk => hnearest k ?_⟩⟩
  · simpa [FleetAdmissionState.markWaiting, hne] using hwaits
  · by_cases hki : k = i
    · simp [FleetAdmissionState.markWaiting, hki]
    · simpa [FleetAdmissionState.markWaiting, hki] using hk

theorem lostWakeup_granted (htrying : s.calls i = .trying) (hgrants : s.state.Grants i) :
    ({ s.setCall i .outside with
        state := ⟨s.state.available - 1, RoundRobin.behind i, Function.update s.state.waiting i false⟩
        permits := s.permits + 1 } : Acquires n).LostWakeup ↔ s.LeavesSleeper i := by
  constructor
  · rintro ⟨j, ⟨hfree, hnext⟩, hasleep, hnone⟩
    have hji : j ≠ i := by
      rintro rfl
      simp [setCall] at hasleep
    refine ⟨htrying, hgrants, hnone, ?_, j, by simpa [setCall, hji] using hasleep, hnext⟩
    exact Nat.lt_of_sub_pos hfree
  · rintro ⟨-, -, hnone, hmore, j, hasleep, hnext⟩
    have hji : j ≠ i := by
      rintro rfl
      cases htrying.symm.trans hasleep
    exact ⟨j, ⟨Nat.sub_pos_of_lt hmore, hnext⟩, by simpa [setCall, hji] using hasleep, hnone⟩

/-- **One step loses a wakeup exactly if it registers late or leaves a sleeper.** -/
theorem lostWakeup_step (h : ¬ s.LostWakeup) : ¬ (s.step e).LostWakeup ↔ s.Wakes e := by
  cases e with
  | enter i =>
    refine iff_of_true ?_ trivial
    rw [step]
    split
    · exact lostWakeup_setCall h (by decide)
    · exact h
  | attempt i =>
    by_cases htrying : s.calls i = .trying
    · by_cases hgrants : s.state.Grants i
      · rw [Wakes, ← lostWakeup_granted htrying hgrants]
        simp only [step, htrying, if_true, FleetAdmissionState.tryAcquire_granted hgrants]
      · refine iff_of_true ?_ fun hleaves => hgrants hleaves.2.1
        simpa only [step, htrying, if_true, FleetAdmissionState.tryAcquire_refused hgrants] using
          lostWakeup_refused h
    · refine iff_of_true ?_ fun hleaves => htrying hleaves.1
      rwa [step, if_neg htrying]
  | register i =>
    by_cases hrefused : s.calls i = .refused
    · rw [Wakes, ← lostWakeup_register h hrefused, step, if_pos hrefused]
    · refine iff_of_true ?_ fun hlate => hrefused hlate.1
      rwa [step, if_neg hrefused]
  | resume i =>
    refine iff_of_true ?_ trivial
    rw [step]
    split
    · exact lostWakeup_setCall h (by decide)
    · exact h
  | cancel i =>
    refine iff_of_true ?_ trivial
    rw [step]
    split
    · rintro ⟨_, _, _, hnone⟩
      cases hnone
    · exact h
  | dropPermit =>
    refine iff_of_true ?_ trivial
    rw [step]
    split
    · rintro ⟨_, _, _, hnone⟩
      cases hnone
    · exact h
  | notify =>
    refine iff_of_true ?_ trivial
    rw [step]
    split
    · rintro ⟨j, _, hasleep, _⟩
      cases hcall : s.calls j <;> simp [Acquiring.notified, hcall] at hasleep
    · exact h

/-- **No wakeup is lost exactly if no repository registers late or is left to sleep**, on every
fleet in which no call of `acquire` is under way. -/
theorem no_lost_wakeup_iff (state : FleetAdmissionState n) (events : List (AcquireStep n)) :
    (∀ before late, events = before ++ late →
      ¬ (Transition.run step ({ state := state } : Acquires n) before).LostWakeup) ↔
      Transition.Meets step Wakes { state := state } events := by
  refine Transition.invariant_iff_meets (P := fun s => ¬ LostWakeup s) (fun _ _ => lostWakeup_step) ?_
  rintro ⟨_, _, hasleep, _⟩
  cases hasleep

/-- The first repository drops its permit after the second one was refused, and before it sleeps. -/
theorem wakeup_lost : ¬ ∀ (repositories : List String) (limit : ℕ)
    (state : FleetAdmissionState repositories.length),
    FleetAdmission.new repositories limit = .ok state → ∀ events : List (AcquireStep repositories.length),
      ¬ (Transition.run step ({ state := state } : Acquires repositories.length) events).LostWakeup := by
  intro h
  exact h ["acme/site", "acme/shop"] 1 ⟨1, 0, fun _ => false⟩ rfl
    [.enter 0, .attempt 0, .enter 1, .attempt 1, .dropPermit, .notify, .register 1] (by decide)

/-- Two permits return while three repositories sleep. The last is refused again because it is the
turn of the second, whose grant wakes nobody: the last sleeps although a permit is free. -/
example : (Transition.run step ({ state := ⟨2, 0, fun _ => false⟩ } : Acquires 4)
    [.enter 0, .attempt 0, .enter 1, .attempt 1, .enter 2, .attempt 2, .register 2, .enter 3, .attempt 3,
      .register 3, .dropPermit, .notify, .dropPermit, .notify, .resume 3, .attempt 3, .register 3,
      .resume 2, .attempt 2]).LostWakeup := by
  decide

end Acquires

end FlashyFactory
