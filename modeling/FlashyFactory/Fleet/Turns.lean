import FlashyFactory.Fleet.Admission
import Mathlib.Data.Fintype.Card

/-! # Permits in turn

Any calls of `try_acquire` and `cancel_wait` and any drops of permits. No permit is lost or made up,
and nobody overtakes a repository twice while it waits. -/

namespace FlashyFactory
open RoundRobin (distance next behind)

inductive AdmissionEvent
  | tryAcquire (repository : String)
  | cancelWait (repository : String)
  /-- The `k`-th of the permits is dropped. -/
  | dropPermit (k : ℕ)
deriving DecidableEq, Repr

/-- The state under the lock and, as history, who holds a permit. -/
@[ext] structure Permits (n : ℕ) where
  state : FleetAdmissionState n
  permits : List (Fin n) := []

instance : DecidableEq (Permits n) := fun _ _ => decidable_of_iff _ Permits.ext_iff.symm

namespace Permits
open FleetAdmission
variable {repositories : List String}

def step (s : Permits repositories.length) : AdmissionEvent → Permits repositories.length
  | .tryAcquire repository => match FleetAdmission.tryAcquire s.state repository with
    | .ok (granted, state) => ⟨state, granted.toList ++ s.permits⟩
    | .error _ => s
  | .cancelWait repository => { s with state := FleetAdmission.cancelWait s.state repository }
  | .dropPermit k =>
    if k < s.permits.length then ⟨s.state.giveBack, s.permits.eraseIdx k⟩ else s

/-- The repository that the answer of `try_acquire` grants a permit. -/
def granted (s : Permits repositories.length) : AdmissionEvent → Option (Fin repositories.length)
  | .tryAcquire repository => match FleetAdmission.tryAcquire s.state repository with
    | .ok (answer, _) => answer
    | .error _ => none
  | _ => none

/-- `i` is granted a permit, or cancels. -/
def EndsWait (i : Fin repositories.length) (s : Permits repositories.length) (e : AdmissionEvent) : Prop :=
  s.granted e = some i ∨ ∃ repository, e = .cancelWait repository ∧
    position repositories repository = some i

/-- Who is granted the permits, in order. -/
def grants (s : Permits repositories.length) : List AdmissionEvent → List (Fin repositories.length)
  | [] => []
  | e :: events => (s.granted e).toList ++ (s.step e).grants events

/-- All that an event can do. -/
inductive Does (s : Permits repositories.length) (e : AdmissionEvent) :
    Permits repositories.length → Prop
  | granted (i) (hgrants : s.state.Grants i) (he : s.granted e = some i) : Does s e
      ⟨⟨s.state.available - 1, behind i, Function.update s.state.waiting i false⟩, i :: s.permits⟩
  | refused (i) (hrefused : ¬ s.state.Grants i) (he : s.granted e = none) :
      Does s e { s with state := s.state.markWaiting i }
  | cancelled (i) (hends : EndsWait i s e) (he : s.granted e = none) :
      Does s e { s with state := s.state.cancelWait i }
  | dropped (k) (hk : k < s.permits.length) (he : s.granted e = none) :
      Does s e ⟨s.state.giveBack, s.permits.eraseIdx k⟩
  | nothing (he : s.granted e = none) : Does s e s

theorem step_does (s : Permits repositories.length) (e : AdmissionEvent) : Does s e (s.step e) := by
  cases e with
  | tryAcquire repository =>
    cases hposition : position repositories repository with
    | none =>
      have hanswer := tryAcquire_unknown (s := s.state) hposition
      have hstep : s.step (.tryAcquire repository) = s := by
        simp only [step, hanswer]
      rw [hstep]
      exact .nothing (by simp only [granted, hanswer])
    | some i =>
      by_cases hgrants : s.state.Grants i
      · have hanswer := tryAcquire_granted hposition hgrants
        have hstep : s.step (.tryAcquire repository) = ⟨⟨s.state.available - 1, behind i,
            Function.update s.state.waiting i false⟩, i :: s.permits⟩ := by
          simp only [step, hanswer, Option.toList_some, List.singleton_append]
        rw [hstep]
        exact .granted i hgrants (by simp only [granted, hanswer])
      · have hanswer := tryAcquire_refused hposition hgrants
        have hstep : s.step (.tryAcquire repository) = { s with state := s.state.markWaiting i } := by
          simp only [step, hanswer, Option.toList_none, List.nil_append]
        rw [hstep]
        exact .refused i hgrants (by simp only [granted, hanswer])
  | cancelWait repository =>
    cases hposition : position repositories repository with
    | none =>
      have hstep : s.step (.cancelWait repository) = s := by
        simp [step, FleetAdmission.cancelWait, hposition]
      rw [hstep]
      exact .nothing rfl
    | some i =>
      have hstep : s.step (.cancelWait repository) = { s with state := s.state.cancelWait i } := by
        simp [step, FleetAdmission.cancelWait, hposition]
      rw [hstep]
      exact .cancelled i (.inr ⟨repository, rfl, hposition⟩) rfl
  | dropPermit k =>
    by_cases hk : k < s.permits.length
    · have hstep : s.step (.dropPermit k) = ⟨s.state.giveBack, s.permits.eraseIdx k⟩ := if_pos hk
      rw [hstep]
      exact .dropped k hk rfl
    · have hstep : s.step (.dropPermit k) = s := if_neg hk
      rw [hstep]
      exact .nothing rfl

variable {s : Permits repositories.length} {i j : Fin repositories.length} {e : AdmissionEvent}

/-- No event makes up a permit or loses one. -/
theorem conserved (s : Permits repositories.length) (e : AdmissionEvent) :
    (s.step e).permits.length + (s.step e).state.available =
      s.permits.length + s.state.available := by
  have hdoes := step_does s e
  generalize s.step e = s' at hdoes ⊢
  cases hdoes with
  | granted i hgrants _ =>
    have hfree := hgrants.1
    simp only [List.length_cons]
    omega
  | refused _ _ _ => rfl
  | cancelled _ _ _ => rfl
  | dropped k hk _ =>
    simp only [FleetAdmissionState.giveBack, List.length_eraseIdx_of_lt hk]
    omega
  | nothing _ => rfl

/-! ## Fairness -/

/-- `i` waits, and `j` comes after it. -/
structure Ahead (i j : Fin repositories.length) (s : Permits repositories.length) : Prop where
  waits : s.state.waiting i = true
  nearer : distance s.state.cursor i < distance s.state.cursor j

/-- A repository waits until it is granted a permit or cancels. -/
theorem waits_step (hwaits : s.state.waiting i = true) (hends : ¬ EndsWait i s e) :
    (s.step e).state.waiting i = true := by
  have hdoes := step_does s e
  generalize s.step e = s' at hdoes ⊢
  cases hdoes with
  | granted j hgrants he =>
    have hne : i ≠ j := by
      rintro rfl
      exact hends (.inl he)
    simpa [hne] using hwaits
  | refused j _ _ =>
    by_cases hj : i = j
    · simp [FleetAdmissionState.markWaiting, hj]
    · simpa [FleetAdmissionState.markWaiting, hj] using hwaits
  | cancelled j hcancel he =>
    have hne : i ≠ j := by
      rintro rfl
      exact hends hcancel
    simpa [FleetAdmissionState.cancelWait, hne] using hwaits
  | dropped _ _ _ => exact hwaits
  | nothing _ => exact hwaits

theorem of_granted (h : s.granted e = some i) :
    s.state.Grants i ∧ (s.step e).state.cursor = behind i := by
  have hdoes := step_does s e
  generalize s.step e = s' at hdoes ⊢
  cases hdoes with
  | granted k hgrants he =>
    cases he.symm.trans h
    exact ⟨hgrants, rfl⟩
  | refused _ _ he => cases he.symm.trans h
  | cancelled _ _ he => cases he.symm.trans h
  | dropped _ _ he => cases he.symm.trans h
  | nothing he => cases he.symm.trans h

/-- A registered repository that calls `try_acquire` is granted a permit, or waits from then on. -/
theorem granted_or_waits (hposition : position repositories repository = some i) :
    s.granted (.tryAcquire repository) = some i ∨
      s.granted (.tryAcquire repository) = none ∧
        (s.step (.tryAcquire repository)).state.waiting i = true := by
  by_cases hgrants : s.state.Grants i
  · left
    simp only [granted, FleetAdmission.tryAcquire_granted hposition hgrants]
  · right
    have hanswer := FleetAdmission.tryAcquire_refused hposition hgrants
    refine ⟨by simp only [granted, hanswer], ?_⟩
    simp only [step, hanswer, FleetAdmissionState.markWaiting, Function.update_self]

theorem of_not_granted (h : s.granted e = none) : (s.step e).state.cursor = s.state.cursor ∧
    s.state.available ≤ (s.step e).state.available := by
  have hdoes := step_does s e
  generalize s.step e = s' at hdoes ⊢
  cases hdoes with
  | granted k hgrants he => cases he.symm.trans h
  | refused _ _ _ => exact ⟨rfl, le_rfl⟩
  | cancelled _ _ _ => exact ⟨rfl, le_rfl⟩
  | dropped _ _ _ => exact ⟨rfl, Nat.le_succ _⟩
  | nothing _ => exact ⟨rfl, le_rfl⟩

/-- Who is served before `i` is nearer to the cursor. -/
theorem nearer_of_granted (hwaits : s.state.waiting i = true) (hends : ¬ EndsWait i s e)
    (he : s.granted e = some k) : distance s.state.cursor k < distance s.state.cursor i := by
  have hle := (of_granted he).1.2 i hwaits
  refine lt_of_le_of_ne hle fun heq => hends (.inl ?_)
  rw [he, RoundRobin.distance_injective heq]

/-- Who comes after a waiting repository is not granted a permit, and stays after it. -/
theorem Ahead.step (h : Ahead i j s) (hends : ¬ EndsWait i s e) :
    s.granted e ≠ some j ∧ Ahead i j (s.step e) := by
  have hwaits := waits_step h.waits hends
  cases he : s.granted e with
  | none =>
    refine ⟨nofun, hwaits, ?_⟩
    rw [(of_not_granted he).1]
    exact h.nearer
  | some k =>
    have hk := nearer_of_granted h.waits hends he
    have hkj := hk.trans h.nearer
    refine ⟨?_, hwaits, ?_⟩
    · rintro ⟨⟩
      exact lt_irrefl _ hkj
    · rw [(of_granted he).2]
      have hi := RoundRobin.distance_behind hk
      have hj := RoundRobin.distance_behind hkj
      have hnearer := h.nearer
      omega

/-- The cursor comes nearer to a repository that waits with everyone who is served before it. -/
theorem approaches (hwaits : s.state.waiting i = true) (hends : ¬ EndsWait i s e) :
    distance (s.step e).state.cursor i ≤ distance s.state.cursor i ∧
      (s.granted e ≠ none → distance (s.step e).state.cursor i < distance s.state.cursor i) := by
  cases he : s.granted e with
  | none => exact ⟨by rw [(of_not_granted he).1], fun h => absurd rfl h⟩
  | some k =>
    have hi := RoundRobin.distance_behind (nearer_of_granted hwaits hends he)
    rw [(of_granted he).2]
    exact ⟨by omega, fun _ => by omega⟩

/-- Who is granted a permit while `i` waits comes after it from then on. -/
theorem ahead_of_granted (hwaits : s.state.waiting i = true) (hends : ¬ EndsWait i s e)
    (he : s.granted e = some k) : Ahead i k (s.step e) := by
  refine ⟨waits_step hwaits hends, ?_⟩
  have hi := RoundRobin.distance_behind (nearer_of_granted hwaits hends he)
  have hk := RoundRobin.distance_behind_self (i := k)
  have hlt : distance s.state.cursor i < repositories.length := RoundRobin.distance_lt
  rw [(of_granted he).2]
  omega

/-- The wait of `i` does not end during the events. -/
abbrev WaitsThrough (i : Fin repositories.length) :
    Permits repositories.length → List AdmissionEvent → Prop :=
  Transition.Meets step fun s e => ¬ EndsWait i s e

theorem Ahead.not_mem_grants (h : Ahead i j s) (hthrough : WaitsThrough i s events) :
    j ∉ s.grants events := by
  induction events generalizing s with
  | nil => exact List.not_mem_nil
  | cons e events ih =>
    obtain ⟨hends, hthrough⟩ := hthrough
    obtain ⟨hgranted, hahead⟩ := h.step hends
    simp only [grants, List.mem_append, Option.mem_toList, not_or]
    exact ⟨hgranted, ih hahead hthrough⟩

/-- **Nobody is granted two permits while `i` waits.** -/
theorem grants_nodup (hwaits : s.state.waiting i = true) (hthrough : WaitsThrough i s events) :
    (i :: s.grants events).Nodup := by
  induction events generalizing s with
  | nil => exact List.nodup_singleton i
  | cons e events ih =>
    obtain ⟨hends, hthrough⟩ := hthrough
    have ih := ih (waits_step hwaits hends) hthrough
    cases he : s.granted e with
    | none => simpa [grants, he] using ih
    | some k =>
      have hne : i ≠ k := by
        rintro rfl
        exact hends (.inl he)
      have hlater := (ahead_of_granted hwaits hends he).not_mem_grants hthrough
      simp only [List.nodup_cons] at ih
      simp [grants, he, hne, ih, hlater]

/-- So at most `n - 1` others are granted a permit before `i`. -/
theorem length_grants (hwaits : s.state.waiting i = true) (hthrough : WaitsThrough i s events) :
    (s.grants events).length ≤ repositories.length - 1 := by
  have hcard := (grants_nodup hwaits hthrough).length_le_card
  rw [List.length_cons, Fintype.card_fin] at hcard
  omega

/-! ## Progress

An infinite run from the state `s`. -/

section Progress
variable (s : Permits repositories.length) (events : ℕ → AdmissionEvent)

abbrev after (t : ℕ) : Permits repositories.length := Transition.stateAt step s events t

/-- Again and again a permit is free. -/
def PermitsReturn : Prop := ∀ t, ∃ u ≥ t, 0 < (s.after events u).state.available

/-- A repository that is next in turn while a permit is free tries again. -/
def NextRetries : Prop :=
  ∀ t i, 0 < (s.after events t).state.available →
    (s.after events t).state.nextWaitingRepository = some i →
      ∃ u ≥ t, ∃ repository, position repositories repository = some i ∧
        events u = .tryAcquire repository

variable {s events}

/-- While `i` waits, permits are granted. -/
theorem exists_granted (hreturn : PermitsReturn s events) (hretries : NextRetries s events)
    (hwaits : ∀ u ≥ t, (s.after events u).state.waiting i = true) :
    ∃ u ≥ t, (s.after events u).granted (events u) ≠ none := by
  by_contra hnone
  push Not at hnone
  obtain ⟨u₀, hu₀, hfree⟩ := hreturn t
  -- from here on a permit is free and the cursor does not move
  have hstill : ∀ u ≥ u₀, 0 < (s.after events u).state.available ∧
      (s.after events u).state.cursor = (s.after events u₀).state.cursor := by
    intro u hu
    induction u, hu using Nat.le_induction with
    | base => exact ⟨hfree, rfl⟩
    | succ u hu ih =>
      obtain ⟨hcursor, hmore⟩ := of_not_granted (hnone u (hu₀.trans hu))
      exact ⟨ih.1.trans_le hmore, hcursor.trans ih.2⟩
  obtain ⟨j, hj⟩ : ∃ j, (s.after events u₀).state.nextWaitingRepository = some j :=
    RoundRobin.next_isSome (hwaits u₀ hu₀)
  obtain ⟨v, hv, repository, hposition, hretry⟩ := hretries u₀ j hfree hj
  -- nobody comes to wait before `j`, for it would be granted a permit
  have hnearest : ∀ u ≥ u₀, ∀ k, (s.after events u).state.waiting k = true →
      distance (s.after events u₀).state.cursor j ≤ distance (s.after events u₀).state.cursor k := by
    intro u hu
    induction u, hu using Nat.le_induction with
    | base => exact (RoundRobin.next_eq_some_iff.mp hj).2
    | succ u hu ih =>
      intro k hk
      have hnot := hnone u (hu₀.trans hu)
      have hdoes := step_does (s.after events u) (events u)
      change (step (s.after events u) (events u)).state.waiting k = true at hk
      generalize step (s.after events u) (events u) = s' at hdoes hk
      cases hdoes with
      | granted m _ he => cases he.symm.trans hnot
      | refused m hrefused _ =>
        by_cases hkm : k = m
        · subst hkm
          simp only [FleetAdmissionState.Grants, not_and, not_forall, not_le] at hrefused
          obtain ⟨m, hm, hnearer⟩ := hrefused (hstill u hu).1
          rw [(hstill u hu).2] at hnearer
          exact (ih m hm).trans hnearer.le
        · exact ih k (by simpa [FleetAdmissionState.markWaiting, hkm] using hk)
      | cancelled m _ _ =>
        by_cases hkm : k = m
        · simp [FleetAdmissionState.cancelWait, hkm] at hk
        · exact ih k (by simpa [FleetAdmissionState.cancelWait, hkm] using hk)
      | dropped _ _ _ => exact ih k hk
      | nothing _ => exact ih k hk
  have hgrants : (s.after events v).state.Grants j := by
    refine ⟨(hstill v hv).1, fun k hk => ?_⟩
    rw [(hstill v hv).2]
    exact hnearest v hv k hk
  have hgranted : (s.after events v).granted (events v) = some j := by
    rw [hretry]
    simp only [granted, FleetAdmission.tryAcquire_granted hposition hgrants]
  cases hgranted.symm.trans (hnone v (hu₀.trans hv))

/-- **A repository that waits is granted a permit, or cancels.** -/
theorem wait_ends (hreturn : PermitsReturn s events) (hretries : NextRetries s events)
    (hwaits : (s.after events t).state.waiting i = true) :
    ∃ u ≥ t, EndsWait i (s.after events u) (events u) := by
  by_contra hnever
  push Not at hnever
  have hwaiting : ∀ u ≥ t, (s.after events u).state.waiting i = true := by
    intro u hu
    induction u, hu using Nat.le_induction with
    | base => exact hwaits
    | succ u hu ih => exact waits_step ih (hnever u hu)
  have happroach : ∀ u ≥ t, ∀ v ≥ u, distance (s.after events v).state.cursor i ≤
      distance (s.after events u).state.cursor i := by
    intro u hu v hv
    induction v, hv using Nat.le_induction with
    | base => exact le_rfl
    | succ v hv ih =>
      exact (approaches (hwaiting v (hu.trans hv)) (hnever v (hu.trans hv))).1.trans ih
  -- everyone who is granted a permit brings the cursor nearer to `i`
  have hdescent : ∀ d, ∀ u ≥ t, d ≤ distance (s.after events u).state.cursor i := by
    intro d
    induction d with
    | zero => exact fun _ _ => Nat.zero_le _
    | succ d ih =>
      intro u hu
      obtain ⟨v, hv, hgranted⟩ := exists_granted (t := u) hreturn hretries fun v hv =>
        hwaiting v (hu.trans hv)
      have hnearer := (approaches (hwaiting v (hu.trans hv)) (hnever v (hu.trans hv))).2 hgranted
      exact (ih (v + 1) (hu.trans (hv.trans (Nat.le_succ v)))).trans_lt
        (hnearer.trans_le (happroach u hu v hv))
  have hlt : distance (s.after events t).state.cursor i < repositories.length :=
    RoundRobin.distance_lt
  exact absurd (hdescent _ t le_rfl) (Nat.not_le.mpr hlt)

end Progress

/-! ## Admission is safe and fair -/

/-- **Admission is safe and fair.** The permits that are out and those that are free are always the
limit; a repository that asks for a permit is granted one or waits; while a repository waits nobody is
granted two permits; and if permits return and everyone who is next in turn tries again, it is granted
one after at most `n - 1` others, or it cancels. -/
theorem admission_safe_and_fair (repositories : List String) (limit : ℕ)
    (state : FleetAdmissionState repositories.length)
    (hnew : FleetAdmission.new repositories limit = .ok state) :
    (∀ events, (Transition.run step ⟨state, []⟩ events).permits.length +
      (Transition.run step ⟨state, []⟩ events).state.available = limit) ∧
    (∀ before repository i, position repositories repository = some i →
      let s := Transition.run step ⟨state, []⟩ before
      s.granted (.tryAcquire repository) = some i ∨
        s.granted (.tryAcquire repository) = none ∧
          (s.step (.tryAcquire repository)).state.waiting i = true) ∧
    (∀ before i events, (Transition.run step ⟨state, []⟩ before).state.waiting i = true →
      WaitsThrough i (Transition.run step ⟨state, []⟩ before) events →
        (i :: grants (Transition.run step ⟨state, []⟩ before) events).Nodup ∧
        (grants (Transition.run step ⟨state, []⟩ before) events).length ≤ repositories.length - 1) ∧
    ∀ events, PermitsReturn ⟨state, []⟩ events → NextRetries ⟨state, []⟩ events → ∀ t i,
      (after ⟨state, []⟩ events t).state.waiting i = true → ∃ k,
        EndsWait i (after ⟨state, []⟩ events (t + k)) (events (t + k)) ∧
        (grants (after ⟨state, []⟩ events t) (Transition.window events t k)).length ≤
          repositories.length - 1 := by
  have hlimit : state.available = limit := by
    unfold FleetAdmission.new at hnew
    repeat' split at hnew
    all_goals cases hnew
    rfl
  refine ⟨fun events => ?_, fun before repository i => granted_or_waits,
    fun before i events hwaits hthrough => ⟨grants_nodup hwaits hthrough, length_grants hwaits hthrough⟩, ?_⟩
  · refine Transition.run_invariant
      (P := fun s : Permits repositories.length => s.permits.length + s.state.available = limit)
      ?_ ?_ events
    · exact fun s e h => (conserved s e).trans h
    · simpa using hlimit
  · intro events hreturn hretries t i hwaits
    obtain ⟨u, hu, hends⟩ := wait_ends hreturn hretries hwaits
    have hsome : ∃ k, EndsWait i (after ⟨state, []⟩ events (t + k)) (events (t + k)) :=
      ⟨u - t, by rwa [Nat.add_sub_cancel' hu]⟩
    classical
    refine ⟨Nat.find hsome, Nat.find_spec hsome, length_grants hwaits ?_⟩
    exact Transition.Meets.window fun k hk => Nat.find_min hsome hk

/-! Two repositories that use one permit in turn. -/

abbrev turnRepositories : List String := ["acme/site", "acme/shop"]

def turnStart : FleetAdmissionState turnRepositories.length := ⟨1, 0, fun _ => false⟩

def turnEvents : ℕ → AdmissionEvent := fun t =>
  [.tryAcquire "acme/site", .tryAcquire "acme/shop", .dropPermit 0, .tryAcquire "acme/shop"].getD
    (t % 5) (.dropPermit 0)

theorem turn_mod : ∀ t, after ⟨turnStart, []⟩ turnEvents t = after ⟨turnStart, []⟩ turnEvents (t % 5) :=
  Transition.stateAt_mod (fun t => by simp [turnEvents]) (by decide)

theorem turn_retries : NextRetries ⟨turnStart, []⟩ turnEvents := by
  intro t i hfree hnext
  rw [turn_mod] at hfree hnext
  have hcycle : ∀ r < 5, ∀ i, 0 < (after ⟨turnStart, []⟩ turnEvents r).state.available →
      (after ⟨turnStart, []⟩ turnEvents r).state.nextWaitingRepository = some i →
        position turnRepositories "acme/shop" = some i ∧
          turnEvents r = .tryAcquire "acme/shop" := by
    decide
  obtain ⟨hposition, hevent⟩ := hcycle (t % 5) (Nat.mod_lt _ (by decide)) i hfree hnext
  refine ⟨t, le_rfl, "acme/shop", hposition, ?_⟩
  simpa [turnEvents] using hevent

theorem turn_returns : PermitsReturn ⟨turnStart, []⟩ turnEvents := by
  intro t
  refine ⟨5 * (t + 1), by omega, ?_⟩
  rw [turn_mod, Nat.mul_mod_right]
  decide

/-- The first repository is granted the permit and the second one is refused; it waits from time 2 on. -/
theorem admission_safe_and_fair_turn :
    (Transition.run step ⟨turnStart, []⟩ [.tryAcquire "acme/site"]).permits.length +
      (Transition.run step ⟨turnStart, []⟩ [.tryAcquire "acme/site"]).state.available = 1 ∧
    granted (⟨turnStart, []⟩ : Permits turnRepositories.length) (.tryAcquire "acme/site") = some 0 ∧
    (step (Transition.run step ⟨turnStart, []⟩ [.tryAcquire "acme/site"])
      (.tryAcquire "acme/shop")).state.waiting 1 = true ∧
    (1 :: grants (Transition.run step ⟨turnStart, []⟩ [.tryAcquire "acme/site", .tryAcquire "acme/shop"])
      [.dropPermit 0]).Nodup ∧
    ∃ k, EndsWait 1 (after ⟨turnStart, []⟩ turnEvents (2 + k)) (turnEvents (2 + k)) := by
  obtain ⟨hsafe, hanswer, hfair, hprogress⟩ := admission_safe_and_fair turnRepositories 1 turnStart rfl
  have hthrough : WaitsThrough 1 (Transition.run step ⟨turnStart, []⟩
      [.tryAcquire "acme/site", .tryAcquire "acme/shop"]) [.dropPermit 0] := by
    refine ⟨?_, trivial⟩
    rintro (h | ⟨_, h, -⟩)
    · revert h
      decide
    · cases h
  have hgranted := (hanswer [] "acme/site" 0 (by decide)).resolve_right (by decide)
  have hwaits := (hanswer [.tryAcquire "acme/site"] "acme/shop" 1 (by decide)).resolve_left (by decide)
  refine ⟨hsafe _, hgranted, hwaits.2, (hfair _ 1 _ (by decide) hthrough).1, ?_⟩
  obtain ⟨k, hk, -⟩ := hprogress _ turn_returns turn_retries 2 1 (by decide)
  exact ⟨k, hk⟩

end Permits

end FlashyFactory
