import FlashyFactory.Lib.Transition
import Mathlib.Data.Finset.Card
import Mathlib.Data.List.Induction

/-! # Host queries

Any number of calls of `FleetHostCoordinator::run`, one step of one call at a time. Instants are nanoseconds. -/

namespace FlashyFactory

/-! ## One call -/

/-- What an operation returns. -/
inductive HostResult
  | ok
  | error
  /-- An error with a rate limit. -/
  | rateLimited (retryAt : Option ℤ)
deriving DecidableEq, Repr

def rateLimitFallback : ℕ := 60 * 1000000000

def resolveRateLimitDelay (retryAt : Option ℤ) (observedAt : ℤ) : ℕ :=
  match retryAt with
  | some retryAt => if observedAt < retryAt then (retryAt - observedAt).toNat else rateLimitFallback
  | none => rateLimitFallback

/-- Where a call is. -/
inductive HostPhase
  | idle
  /-- at the top of the loop -/
  | looping
  /-- in the `select!` with `sleep_until` -/
  | sleeping (pauseUntil : ℕ)
  /-- in the `select!` with `acquire_owned` -/
  | acquiring
  /-- has a permit, and is about to look at the pause -/
  | checking
  /-- has seen the pause, and is about to look at the clock -/
  | comparing (pauseUntil : Option ℕ)
  /-- the operation is in progress -/
  | running
  /-- is about to drop its permit -/
  | releasing (result : HostResult)
  | released (result : HostResult)
  /-- is about to extend the pause -/
  | pausing (retryAt : ℕ) (result : HostResult)
  | returned (result : HostResult)
  /-- has returned the error `host query cancelled` -/
  | cancelled
  /-- its future was dropped while it waited -/
  | dropped
  /-- its future was dropped while its operation was in progress -/
  | interrupted
deriving DecidableEq, Repr

inductive HostAction
  | call
  | readPause
  | wake
  | acquire
  | noticeCancellation
  | check
  | compare
  | finish (result : HostResult)
  | release
  /-- The rate limit is resolved at this time. -/
  | resolve (observedAt : ℤ)
  | store
  /-- The future is dropped. -/
  | drop
deriving DecidableEq, Repr

namespace HostPhase

/-- The permits that the call holds. -/
def permits : HostPhase → ℕ
  | checking | comparing _ | running | releasing _ => 1
  | _ => 0

/-- How often the operation has been started. -/
def starts : HostPhase → ℕ
  | running | releasing _ | released _ | pausing .. | returned _ | interrupted => 1
  | _ => 0

end HostPhase

/-- What a step of a call does. -/
structure HostMove where
  phase : HostPhase
  takes : ℕ := 0
  gives : ℕ := 0
  starts : ℕ := 0
  pauseUntil : Option ℕ

/-- The state that the calls share. -/
structure HostShared where
  now : ℕ
  slots : ℕ
  pauseUntil : Option ℕ

/-- The step of a call in its phase, if it is enabled. -/
def HostShared.move? (h : HostShared) (cancelled : Bool) : HostPhase → HostAction → Option HostMove
  | .idle, .call => some { phase := .looping, pauseUntil := h.pauseUntil }
  | .looping, .readPause => match h.pauseUntil with
    | some pauseUntil => some { phase := .sleeping pauseUntil, pauseUntil := h.pauseUntil }
    | none => some { phase := .acquiring, pauseUntil := h.pauseUntil }
  | .sleeping pauseUntil, .wake =>
    if pauseUntil ≤ h.now then some { phase := .acquiring, pauseUntil := h.pauseUntil } else none
  | .sleeping _, .noticeCancellation =>
    if cancelled then some { phase := .cancelled, pauseUntil := h.pauseUntil } else none
  | .sleeping _, .drop => some { phase := .dropped, pauseUntil := h.pauseUntil }
  | .acquiring, .acquire =>
    if 0 < h.slots then some { phase := .checking, takes := 1, pauseUntil := h.pauseUntil } else none
  | .acquiring, .noticeCancellation =>
    if cancelled then some { phase := .cancelled, pauseUntil := h.pauseUntil } else none
  | .acquiring, .drop => some { phase := .dropped, pauseUntil := h.pauseUntil }
  | .checking, .check => some { phase := .comparing h.pauseUntil, pauseUntil := h.pauseUntil }
  | .comparing pauseUntil, .compare =>
    if pauseUntil.any (h.now < ·) then some { phase := .looping, gives := 1, pauseUntil := h.pauseUntil }
    else some { phase := .running, starts := 1, pauseUntil := h.pauseUntil }
  | .running, .finish result => some { phase := .releasing result, pauseUntil := h.pauseUntil }
  | .running, .drop => some { phase := .interrupted, gives := 1, pauseUntil := h.pauseUntil }
  | .releasing result, .release => some { phase := .released result, gives := 1, pauseUntil := h.pauseUntil }
  | .released result, .resolve observedAt => match result with
    | .rateLimited retryAt =>
      some { phase := .pausing (h.now + resolveRateLimitDelay retryAt observedAt) result, pauseUntil := h.pauseUntil }
    | _ => some { phase := .returned result, pauseUntil := h.pauseUntil }
  | .pausing retryAt result, .store =>
    some { phase := .returned result, pauseUntil := some ((h.pauseUntil.map (max · retryAt)).getD retryAt) }
  | _, _ => none

/-! ## Many calls -/

inductive HostEvent (ι : Type*)
  | tick (nanos : ℕ)
  /-- The cancellation token of the call is cancelled. -/
  | cancel (i : ι)
  | act (i : ι) (action : HostAction)

/-- The coordinator and its calls, with counters as history. -/
structure HostQueries (ι : Type*) extends HostShared where
  phase : ι → HostPhase
  cancelled : ι → Bool
  started : ι → ℕ
  taken : ι → ℕ
  givenBack : ι → ℕ

namespace HostQueries
variable {ι : Type*} [DecidableEq ι]

def initial (now : ℕ) : HostQueries ι where
  now := now
  slots := 2
  pauseUntil := none
  phase _ := .idle
  cancelled _ := false
  started _ := 0
  taken _ := 0
  givenBack _ := 0

def apply (s : HostQueries ι) (i : ι) (m : HostMove) : HostQueries ι where
  now := s.now
  slots := s.slots - m.takes + m.gives
  pauseUntil := m.pauseUntil
  phase := Function.update s.phase i m.phase
  cancelled := s.cancelled
  started := Function.update s.started i (s.started i + m.starts)
  taken := Function.update s.taken i (s.taken i + m.takes)
  givenBack := Function.update s.givenBack i (s.givenBack i + m.gives)

def step (s : HostQueries ι) : HostEvent ι → HostQueries ι
  | .tick nanos => { s with now := s.now + nanos }
  | .cancel i => { s with cancelled := Function.update s.cancelled i true }
  | .act i action => match s.move? (s.cancelled i) (s.phase i) action with
    | some m => s.apply i m
    | none => s

def run (now : ℕ) (events : List (HostEvent ι)) : HostQueries ι := Transition.run step (initial now) events

end HostQueries

/-! ## What a step does -/

/-- The effects of a step of a call. -/
structure HostMove.Allowed (h : HostShared) (cancelled : Bool) (phase : HostPhase) (action : HostAction)
    (m : HostMove) :
    Prop where
  /-- A call takes a permit that is there, and gives back what it holds. -/
  permits : phase.permits + m.takes = m.phase.permits + m.gives
  takes : m.takes ≤ h.slots
  starts : phase.starts + m.starts = m.phase.starts
  /-- The operation is started after a look at the pause and then at the clock. -/
  start : m.starts ≠ 0 → action = .compare ∧ ∃ pauseUntil, phase = .comparing pauseUntil ∧
    ∀ p ∈ pauseUntil, p ≤ h.now
  compares : ∀ pauseUntil, m.phase = .comparing pauseUntil → phase = .checking ∧ action = .check ∧
    pauseUntil = h.pauseUntil
  pause : ∀ p, h.pauseUntil = some p → ∃ q, m.pauseUntil = some q ∧ p ≤ q
  cancelled : m.phase = .cancelled → cancelled = true

namespace HostMove.Allowed
variable {h : HostShared} {cancelled : Bool} {phase after : HostPhase} {action : HostAction}

theorem pause_refl : ∀ p, h.pauseUntil = some p → ∃ q, h.pauseUntil = some q ∧ p ≤ q :=
  fun p hp => ⟨p, hp, le_rfl⟩

/-- A step that touches neither the permits nor the operation nor the pause. -/
theorem quiet (hpermits : phase.permits = after.permits) (hstarts : phase.starts = after.starts)
    (hcompares : ∀ pauseUntil, after ≠ .comparing pauseUntil)
    (hcancelled : after = .cancelled → cancelled = true) :
    Allowed h cancelled phase action { phase := after, pauseUntil := h.pauseUntil } where
  permits := by simpa using hpermits
  takes := Nat.zero_le _
  starts := hstarts
  start hne := (hne rfl).elim
  compares pauseUntil hto := (hcompares pauseUntil hto).elim
  pause := pause_refl
  cancelled := hcancelled

/-- A step that gives the permit back. -/
theorem gives (hphase : phase.permits = 1) (hto : after.permits = 0) (hstarts : phase.starts = after.starts)
    (hcompares : ∀ pauseUntil, after ≠ .comparing pauseUntil) (hcancelled : after ≠ .cancelled) :
    Allowed h cancelled phase action { phase := after, gives := 1, pauseUntil := h.pauseUntil } where
  permits := by simp [hphase, hto]
  takes := Nat.zero_le _
  starts := hstarts
  start hne := (hne rfl).elim
  compares pauseUntil hto := (hcompares pauseUntil hto).elim
  pause := pause_refl
  cancelled hto := (hcancelled hto).elim

end HostMove.Allowed

theorem HostShared.allowed_of_move? {h : HostShared} {cancelled : Bool} {phase : HostPhase} {action : HostAction}
    {m : HostMove} (hm : h.move? cancelled phase action = some m) : m.Allowed h cancelled phase action := by
  unfold HostShared.move? at hm
  split at hm
  case h_1 =>
    cases hm
    exact .quiet rfl rfl nofun nofun
  case h_2 =>
    split at hm
    all_goals
      cases hm
      exact .quiet rfl rfl nofun nofun
  case h_3 =>
    split at hm
    · cases hm
      exact .quiet rfl rfl nofun nofun
    · cases hm
  case h_4 =>
    split at hm
    · next hcancelled =>
      cases hm
      exact .quiet rfl rfl nofun fun _ => hcancelled
    · cases hm
  case h_5 =>
    cases hm
    exact .quiet rfl rfl nofun nofun
  case h_6 =>
    split at hm
    · next hslots =>
      cases hm
      exact ⟨rfl, hslots, rfl, fun hne => (hne rfl).elim, nofun, HostMove.Allowed.pause_refl, nofun⟩
    · cases hm
  case h_7 =>
    split at hm
    · next hcancelled =>
      cases hm
      exact .quiet rfl rfl nofun fun _ => hcancelled
    · cases hm
  case h_8 =>
    cases hm
    exact .quiet rfl rfl nofun nofun
  case h_9 =>
    cases hm
    refine ⟨rfl, Nat.zero_le _, rfl, fun hne => (hne rfl).elim, ?_, HostMove.Allowed.pause_refl, nofun⟩
    rintro pauseUntil ⟨⟩
    exact ⟨rfl, rfl, rfl⟩
  case h_10 pauseUntil =>
    split at hm
    · cases hm
      exact .gives rfl rfl rfl nofun nofun
    · next hpassed =>
      cases hm
      refine ⟨rfl, Nat.zero_le _, rfl, fun _ => ⟨rfl, pauseUntil, rfl, ?_⟩, nofun,
        HostMove.Allowed.pause_refl, nofun⟩
      intro p hp
      rw [Option.mem_def.mp hp] at hpassed
      simpa using hpassed
  case h_11 =>
    cases hm
    exact .quiet rfl rfl nofun nofun
  case h_12 =>
    cases hm
    exact .gives rfl rfl rfl nofun nofun
  case h_13 =>
    cases hm
    exact .gives rfl rfl rfl nofun nofun
  case h_14 =>
    split at hm
    all_goals
      cases hm
      exact .quiet rfl rfl nofun nofun
  case h_15 retryAt result =>
    cases hm
    refine ⟨rfl, Nat.zero_le _, rfl, fun hne => (hne rfl).elim, nofun,
      fun p hp => ⟨max p retryAt, ?_, le_max_left _ _⟩, nofun⟩
    rw [hp]
    rfl
  case h_16 => cases hm

/-! ## Runs -/

theorem HostPhase.permits_le (phase : HostPhase) : phase.permits ≤ 1 := by cases phase <;> simp [permits]

theorem HostPhase.starts_le (phase : HostPhase) : phase.starts ≤ 1 := by cases phase <;> simp [starts]

namespace HostQueries
variable {ι : Type*} [DecidableEq ι] {s : HostQueries ι} {i j : ι} {m : HostMove} {now : ℕ}
    {events : List (HostEvent ι)}

@[simp] theorem phase_apply_self : (s.apply i m).phase i = m.phase := Function.update_self ..

theorem phase_apply_of_ne (h : j ≠ i) : (s.apply i m).phase j = s.phase j := Function.update_of_ne h ..

/-- All that an event can do. -/
inductive Does (s : HostQueries ι) : HostEvent ι → HostQueries ι → Prop
  | tick (nanos : ℕ) : Does s (.tick nanos) { s with now := s.now + nanos }
  | cancel (i : ι) : Does s (.cancel i) { s with cancelled := Function.update s.cancelled i true }
  | moved (i : ι) (action : HostAction) (m : HostMove)
      (h : m.Allowed s.toHostShared (s.cancelled i) (s.phase i) action) : Does s (.act i action) (s.apply i m)
  | nothing (e : HostEvent ι) : Does s e s

theorem does_step (s : HostQueries ι) (e : HostEvent ι) : Does s e (s.step e) := by
  cases e with
  | tick nanos => exact .tick nanos
  | cancel i => exact .cancel i
  | act i action =>
    simp only [step]
    split
    · next m hm => exact .moved i action m (HostShared.allowed_of_move? hm)
    · exact .nothing _

/-- The permits and the operations are those that the phases of the calls account for. -/
structure Accounted (s : HostQueries ι) : Prop where
  holders : ∃ holders : Finset ι, (∀ i, i ∈ holders ↔ (s.phase i).permits = 1) ∧ s.slots + holders.card = 2
  taken : ∀ i, s.taken i = s.givenBack i + (s.phase i).permits
  started : ∀ i, s.started i = (s.phase i).starts
  cancelled : ∀ i, s.phase i = .cancelled → s.cancelled i = true

theorem holders_apply {holders : Finset ι} (hm : m.Allowed s.toHostShared c (s.phase i) action)
    (hholders : ∀ j, j ∈ holders ↔ (s.phase j).permits = 1) (hslots : s.slots + holders.card = 2) :
    ∃ after : Finset ι, (∀ j, j ∈ after ↔ ((s.apply i m).phase j).permits = 1) ∧
      (s.apply i m).slots + after.card = 2 := by
  have hpermits := hm.permits
  have htakes := hm.takes
  have hbefore : (holders.erase i).card + (s.phase i).permits = holders.card := by
    have hle := HostPhase.permits_le (s.phase i)
    by_cases hmem : i ∈ holders
    · rw [(hholders i).mp hmem, Finset.card_erase_add_one hmem]
    · have hne : (s.phase i).permits ≠ 1 := fun h => hmem ((hholders i).mpr h)
      rw [Finset.erase_eq_of_notMem hmem]
      omega
  have hslots' : ∀ n, n + (s.phase i).permits = holders.card + m.phase.permits → (s.apply i m).slots + n = 2 := by
    intro n hn
    change s.slots - m.takes + m.gives + n = 2
    omega
  have hle := HostPhase.permits_le m.phase
  by_cases hholds : m.phase.permits = 1
  · refine ⟨insert i (holders.erase i), fun j => ?_, hslots' _ ?_⟩
    · by_cases hj : j = i
      · subst hj
        simp [hholds]
      · rw [Finset.mem_insert, Finset.mem_erase, phase_apply_of_ne hj, hholders j]
        simp [hj]
    · rw [Finset.card_insert_of_notMem (Finset.notMem_erase i holders)]
      omega
  · refine ⟨holders.erase i, fun j => ?_, hslots' _ (by omega)⟩
    by_cases hj : j = i
    · subst hj
      simp [hholds]
    · rw [Finset.mem_erase, phase_apply_of_ne hj, hholders j]
      simp [hj]

theorem Accounted.step (h : s.Accounted) (e : HostEvent ι) : (s.step e).Accounted := by
  have hdoes := does_step s e
  generalize s.step e = s' at hdoes ⊢
  cases hdoes with
  | tick nanos => exact ⟨h.holders, h.taken, h.started, h.cancelled⟩
  | cancel i =>
    refine ⟨h.holders, h.taken, h.started, fun j hj => ?_⟩
    by_cases hji : j = i
    · subst hji
      exact Function.update_self ..
    · exact (Function.update_of_ne hji ..).trans (h.cancelled j hj)
  | moved i action m hm =>
    obtain ⟨holders, hholders, hslots⟩ := h.holders
    refine ⟨holders_apply hm hholders hslots, fun j => ?_, fun j => ?_, fun j hj => ?_⟩
    · by_cases hji : j = i
      · subst hji
        have htaken := h.taken j
        have hpermits := hm.permits
        simp only [apply, Function.update_self]
        omega
      · simpa only [apply, Function.update_of_ne hji] using h.taken j
    · by_cases hji : j = i
      · subst hji
        have hstarts := hm.starts
        simp only [apply, Function.update_self, h.started j]
        omega
      · simpa only [apply, Function.update_of_ne hji] using h.started j
    · by_cases hji : j = i
      · subst hji
        exact hm.cancelled (phase_apply_self.symm.trans hj)
      · exact h.cancelled j ((phase_apply_of_ne hji).symm.trans hj)
  | nothing e => exact h

theorem accounted_run (now : ℕ) (events : List (HostEvent ι)) : (run now events).Accounted := by
  have hinitial : (initial now : HostQueries ι).Accounted :=
    ⟨⟨∅, by simp [initial, HostPhase.permits], rfl⟩, fun _ => rfl, fun _ => rfl, nofun⟩
  exact Transition.run_invariant (fun _ e h => h.step e) hinitial events

/-! ## The pause -/

/-- The one pause is no later than the other. -/
def PauseLe (a b : Option ℕ) : Prop := ∀ p, a = some p → ∃ q, b = some q ∧ p ≤ q

theorem PauseLe.trans {a b c : Option ℕ} (hab : PauseLe a b) (hbc : PauseLe b c) : PauseLe a c := by
  intro p hp
  obtain ⟨q, hq, hpq⟩ := hab p hp
  obtain ⟨r, hr, hqr⟩ := hbc q hq
  exact ⟨r, hr, hpq.trans hqr⟩

theorem pauseLe_step (s : HostQueries ι) (e : HostEvent ι) : PauseLe s.pauseUntil (s.step e).pauseUntil := by
  have hdoes := does_step s e
  generalize s.step e = s' at hdoes ⊢
  cases hdoes with
  | tick nanos => exact fun p hp => ⟨p, hp, le_rfl⟩
  | cancel i => exact fun p hp => ⟨p, hp, le_rfl⟩
  | moved i action m hm => exact hm.pause
  | nothing e => exact fun p hp => ⟨p, hp, le_rfl⟩

theorem pauseLe_run (events later : List (HostEvent ι)) :
    PauseLe (run now events).pauseUntil (run now (events ++ later)).pauseUntil := by
  rw [run, run, Transition.run_append]
  refine Transition.Meets.climbs (C := fun _ _ => True)
    (R := fun s s' : HostQueries ι => PauseLe s.pauseUntil s'.pauseUntil)
    (fun s p hp => ⟨p, hp, le_rfl⟩) PauseLe.trans (fun s e _ => pauseLe_step s e)
    (.of_forall (fun _ _ => trivial) _ later)

theorem run_concat {e : HostEvent ι} : run now (events ++ [e]) = (run now events).step e := by
  rw [run, Transition.run_append]
  rfl

/-- The last look of the call at the pause, after the events `before`: since then it has not moved. -/
structure LastCheck (now : ℕ) (events : List (HostEvent ι)) (i : ι) (before : List (HostEvent ι)) : Prop where
  checking : (run now before).phase i = .checking
  since : ∃ between, events = before ++ .act i .check :: between ∧ ∀ mid, mid <+: between →
    (run now (before ++ .act i .check :: mid)).phase i = .comparing (run now before).pauseUntil

/-- What a call compares with the clock is what it saw at its last look. -/
theorem lastCheck_of_comparing {pauseUntil : Option ℕ} (h : (run now events).phase i = .comparing pauseUntil) :
    ∃ before, LastCheck now events i before ∧ (run now before).pauseUntil = pauseUntil := by
  induction events using List.reverseRecOn with
  | nil => cases h
  | append_singleton events e ih =>
    have hkept : (run now events).phase i = .comparing pauseUntil →
        ∃ before, LastCheck now (events ++ [e]) i before ∧ (run now before).pauseUntil = pauseUntil := by
      intro hbefore
      obtain ⟨before, ⟨hchecking, between, rfl, hbetween⟩, rfl⟩ := ih hbefore
      refine ⟨before, ⟨hchecking, between ++ [e], by simp, fun mid hmid => ?_⟩, rfl⟩
      rcases List.prefix_concat_iff.mp hmid with rfl | hmid
      · simpa using h
      · exact hbetween mid hmid
    have hdoes := does_step (run now events) e
    have hnow := h
    rw [run_concat] at hnow
    generalize (run now events).step e = s' at hdoes hnow
    cases hdoes with
    | tick nanos => exact hkept hnow
    | cancel j => exact hkept hnow
    | nothing e => exact hkept hnow
    | moved j action m hm =>
      by_cases hij : i = j
      · subst hij
        rw [phase_apply_self] at hnow
        obtain ⟨hchecking, rfl, rfl⟩ := hm.compares pauseUntil hnow
        refine ⟨events, ⟨hchecking, [], by simp, fun mid hmid => ?_⟩, rfl⟩
        obtain rfl := List.prefix_nil.mp hmid
        exact h
      · rw [phase_apply_of_ne hij] at hnow
        exact hkept hnow

/-! ## The limits -/

/-- Host queries are limited and respect the shared pause. -/
structure Limited (now : ℕ) (events : List (HostEvent ι)) : Prop where
  /-- At most two operations are in progress. -/
  two : ∀ operations : Finset ι, (∀ i ∈ operations, (run now events).phase i = .running) →
    operations.card ≤ 2
  once : ∀ i, (run now events).started i ≤ 1
  /-- A call that has ended has given back every permit it took, and when no call has a permit both are there. -/
  givenBack : ∀ i result, (run now events).phase i = .returned result ∨ (run now events).phase i = .cancelled ∨
      (run now events).phase i = .dropped ∨ (run now events).phase i = .interrupted →
    (run now events).taken i = (run now events).givenBack i
  slots : (∀ i, ((run now events).phase i).permits = 0) → (run now events).slots = 2
  pause : ∀ later, PauseLe (run now events).pauseUntil (run now (events ++ later)).pauseUntil
  /-- When an operation is started, each pause that was set before the last look of its call is over. -/
  paused : ∀ i e, (run now (events ++ [e])).started i ≠ (run now events).started i →
    ∃ before, LastCheck now events i before ∧
      ∀ earlier, earlier <+: before → ∀ p, (run now earlier).pauseUntil = some p → p ≤ (run now events).now
  /-- The operation of a call that returns is run, but for a call that was cancelled. -/
  returned : ∀ i, (∀ result, (run now events).phase i = .returned result → (run now events).started i = 1) ∧
    ((run now events).phase i = .cancelled → (run now events).started i = 0 ∧ (run now events).cancelled i = true)

/-- **Host queries are limited and respect the shared pause.** -/
theorem hostQueries_limited (now : ℕ) (events : List (HostEvent ι)) : Limited now events := by
  have haccounted := accounted_run now events
  obtain ⟨holders, hholders, hslots⟩ := haccounted.holders
  refine ⟨fun operations hoperations => ?_, fun i => ?_, fun i result h => ?_, fun h => ?_, pauseLe_run events,
    fun i e h => ?_, fun i => ⟨fun result h => ?_, fun h => ⟨?_, haccounted.cancelled i h⟩⟩⟩
  · have hsubset : operations ⊆ holders := by
      intro i hi
      rw [hholders i, hoperations i hi]
      rfl
    have hcard := Finset.card_le_card hsubset
    omega
  · rw [haccounted.started i]
    exact HostPhase.starts_le _
  · have hpermits : ((run now events).phase i).permits = 0 := by
      rcases h with h | h | h | h
      all_goals
        rw [h]
        rfl
    rw [haccounted.taken i, hpermits, Nat.add_zero]
  · have hnone : holders = ∅ := by
      refine Finset.eq_empty_of_forall_notMem fun i hi => ?_
      have hone := (hholders i).mp hi
      rw [h i] at hone
      cases hone
    rw [hnone, Finset.card_empty] at hslots
    exact hslots
  · rw [run_concat] at h
    have hdoes := does_step (run now events) e
    generalize (run now events).step e = s' at hdoes h
    cases hdoes with
    | tick nanos => exact (h rfl).elim
    | cancel j => exact (h rfl).elim
    | nothing e => exact (h rfl).elim
    | moved j action m hm =>
      by_cases hij : i = j
      · subst hij
        have hstarts : m.starts ≠ 0 := by
          intro hzero
          apply h
          simp [apply, hzero]
        obtain ⟨-, pauseUntil, hphase, hover⟩ := hm.start hstarts
        obtain ⟨before, hlast, hpause⟩ := lastCheck_of_comparing hphase
        refine ⟨before, hlast, ?_⟩
        rintro earlier ⟨later, rfl⟩ p hp
        obtain ⟨q, hq, hpq⟩ := pauseLe_run earlier later p hp
        exact hpq.trans (hover q (hpause ▸ hq))
      · exact (h (Function.update_of_ne hij ..)).elim
  · rw [haccounted.started i, h]
    rfl
  · rw [haccounted.started i, h]
    rfl

/-- The steps of a call up to its operation. -/
def startSteps (i : ι) : List (HostEvent ι) :=
  [.act i .call, .act i .readPause, .act i .acquire, .act i .check, .act i .compare]

example : (run 0 (startSteps 0 ++ startSteps 1 ++ startSteps 2) : HostQueries ℕ).slots = 0 ∧
    (run 0 (startSteps 0 ++ startSteps 1 ++ startSteps 2) : HostQueries ℕ).phase 2 = .acquiring := by decide

end HostQueries

end FlashyFactory
