import FlashyFactory.Fleet.Admission
import FlashyFactory.Lib.Transition
import Mathlib.Algebra.Order.BigOperators.Group.Finset
import Mathlib.Data.Fintype.Pi
import Mathlib.Tactic.Ring

/-! # Idle fleets

The loops of the members of a fleet when there is nothing to claim. `dispatch_available` takes a
permit, claims nothing and drops the permit, and the drop wakes every member that is blocked in its
`select`; they dispatch in turn. Apart from that the members run down by themselves (`quiesces_iff`):
a member alone quiesces, and every fleet of two members or more can wake itself so without end. -/

namespace FlashyFactory
open Finset
open RoundRobin (behind turn)

/-- Where the loop of a member stands. -/
inductive MemberLoop
  /-- It goes on to `dispatch_available`. -/
  | dispatching
  /-- It has a permit and has claimed nothing. -/
  | holding
  /-- `drop` has given the permit back, and goes on to `notify_waiters`. -/
  | releasing
  /-- `dispatch_available` is over. -/
  | settling
  /-- It awaits an event in its `select`, with its `Notified`. -/
  | blocked (woken : Bool)
deriving DecidableEq, Repr

def MemberLoop.notified : MemberLoop → MemberLoop
  | blocked _ => blocked true
  | m => m

@[ext] structure IdleFleet (n : ℕ) where
  state : FleetAdmissionState n
  members : Fin n → MemberLoop
  /-- The workers of a member, each with a permit. -/
  workers : Fin n → ℕ := fun _ => 0
  /-- Those that have given their permit back and go on to `notify_waiters`. -/
  leaving : Fin n → ℕ := fun _ => 0
  /-- Those that have ended, and are still in the `JoinSet`. -/
  ended : Fin n → ℕ := fun _ => 0

instance : DecidableEq (IdleFleet n) := fun _ _ => decidable_of_iff _ IdleFleet.ext_iff.symm

inductive FleetStep (n : ℕ)
  | dispatch (i : Fin n)
  | giveBack (i : Fin n)
  | notify (i : Fin n)
  | block (i : Fin n)
  /-- The `Notified` of a member is woken. -/
  | wake (i : Fin n)
  /-- A worker of a member is joined. -/
  | join (i : Fin n)
  | workerNotify (i : Fin n)
  /-- A timer of a member ticks. -/
  | tick (i : Fin n)
  /-- A worker ends. -/
  | workerEnds (i : Fin n)
deriving DecidableEq, Repr

/-- The event comes from outside. -/
def FleetStep.External : FleetStep n → Prop
  | tick _ | workerEnds _ => True
  | _ => False

instance : ∀ e : FleetStep n, Decidable e.External
  | .tick _ | .workerEnds _ => .isTrue trivial
  | .dispatch _ | .giveBack _ | .notify _ | .block _ | .wake _ | .join _ | .workerNotify _ =>
    .isFalse nofun

namespace IdleFleet
variable {n : ℕ} (limit : Fin n → ℕ) (s : IdleFleet n)

def setMember (i : Fin n) (m : MemberLoop) : IdleFleet n :=
  { s with members := Function.update s.members i m }

/-- `notify_waiters`. -/
def notifyWaiters : IdleFleet n := { s with members := fun i => (s.members i).notified }

/-- The runs in the `JoinSet` of a member. -/
def runs (i : Fin n) : ℕ := s.workers i + s.leaving i + s.ended i

/-- One step of a fleet without claimable tasks; `limit` are the runs that a member may have. -/
def step : FleetStep n → IdleFleet n
  | .dispatch i =>
    if s.members i = .dispatching then
      if s.runs i < limit i then
        match s.state.tryAcquire i with
        | (true, state) => { s.setMember i .holding with state := state }
        | (false, state) => { s.setMember i .settling with state := state }
      else s.setMember i .settling
    else s
  | .giveBack i =>
    if s.members i = .holding then { s.setMember i .releasing with state := s.state.giveBack } else s
  | .notify i => if s.members i = .releasing then s.notifyWaiters.setMember i .settling else s
  | .block i => if s.members i = .settling then s.setMember i (.blocked false) else s
  | .wake i => if s.members i = .blocked true then s.setMember i .dispatching else s
  | .join i => match s.members i with
    | .blocked _ =>
      if 0 < s.ended i then
        { s.setMember i .dispatching with ended := Function.update s.ended i (s.ended i - 1) }
      else s
    | _ => s
  | .workerNotify i =>
    if 0 < s.leaving i then
      { s.notifyWaiters with
        leaving := Function.update s.leaving i (s.leaving i - 1)
        ended := Function.update s.ended i (s.ended i + 1) }
    else s
  | .tick i => match s.members i with
    | .blocked _ => s.setMember i .dispatching
    | _ => s
  | .workerEnds i =>
    if 0 < s.workers i then
      { s with
        state := s.state.giveBack
        workers := Function.update s.workers i (s.workers i - 1)
        leaving := Function.update s.leaving i (s.leaving i + 1) }
    else s

/-- The step is a call of `dispatch_available`. -/
def Dispatches : FleetStep n → Prop
  | .dispatch i => s.members i = .dispatching
  | _ => False

/-- A permit that was taken in vain is given back, and wakes a member that is blocked. -/
def WakesInVain : FleetStep n → Prop
  | .notify i => s.members i = .releasing ∧ ∃ j, s.members j = .blocked false
  | _ => False

/-! ## What a step costs -/

/-- How far a loop is from being blocked. -/
def rank : MemberLoop → ℕ
  | .blocked false => 0
  | .settling => 1
  | .releasing => 2
  | .holding => 3
  | .dispatching => 4
  | .blocked true => 5

/-- The member has a permit, or has just given one back. -/
def hasPermit : MemberLoop → ℕ
  | .holding | .releasing => 1
  | _ => 0

/-- How much the members and their workers can still do by themselves. -/
def potential : ℕ :=
  ∑ i, rank (s.members i) + (5 * n + 6) * ∑ i, s.leaving i + 5 * ∑ i, s.ended i

def permitsInVain : ℕ := ∑ i, hasPermit (s.members i)

theorem sum_update {f : Fin n → α} {g : α → ℕ} {a : α} (i : Fin n) :
    ∑ j, g (Function.update f i a j) + g (f i) = ∑ j, g (f j) + g a := by
  rw [← Finset.add_sum_erase _ _ (Finset.mem_univ i),
    ← Finset.add_sum_erase _ (fun j => g (f j)) (Finset.mem_univ i)]
  have hrest : ∑ j ∈ univ.erase i, g (Function.update f i a j) = ∑ j ∈ univ.erase i, g (f j) := by
    refine Finset.sum_congr rfl fun j hj => ?_
    rw [Function.update_of_ne (Finset.ne_of_mem_erase hj)]
  rw [hrest, Function.update_self]
  omega

variable {s}

theorem rank_notified (m : MemberLoop) : rank m.notified ≤ rank m + 5 := by
  cases m with
  | blocked woken => cases woken <;> decide
  | _ => decide

theorem sum_rank_notified : ∑ i, rank (s.members i).notified ≤ ∑ i, rank (s.members i) + 5 * n := by
  calc ∑ i, rank (s.members i).notified ≤ ∑ i, (rank (s.members i) + 5) :=
        Finset.sum_le_sum fun i _ => rank_notified _
    _ = ∑ i, rank (s.members i) + 5 * n := by
        rw [Finset.sum_add_distrib]
        simp [Nat.mul_comm]

theorem hasPermit_notified (m : MemberLoop) : hasPermit m.notified = hasPermit m := by
  cases m <;> rfl

theorem potential_setMember : (s.setMember i m).potential + rank (s.members i) = s.potential + rank m := by
  have hrank := sum_update (f := s.members) (g := rank) (a := m) i
  simp only [potential, setMember]
  omega

theorem permitsInVain_setMember :
    (s.setMember i m).permitsInVain + hasPermit (s.members i) = s.permitsInVain + hasPermit m :=
  sum_update i

theorem permitsInVain_notifyWaiters : s.notifyWaiters.permitsInVain = s.permitsInVain :=
  Finset.sum_congr rfl fun _ _ => hasPermit_notified _

/-- Nobody is woken if nobody sleeps. -/
theorem notifyWaiters_eq (h : ∀ j, s.members j ≠ .blocked false) : s.notifyWaiters = s := by
  have hmembers : (fun i => (s.members i).notified) = s.members := by
    funext i
    have hi := h i
    cases hm : s.members i with
    | blocked woken =>
      cases woken with
      | true => rfl
      | false => exact absurd hm hi
    | _ => rfl
  rw [notifyWaiters, hmembers]

theorem potential_join (h : 0 < s.ended i) :
    ({ s.setMember i .dispatching with
        ended := Function.update s.ended i (s.ended i - 1) } : IdleFleet n).potential < s.potential := by
  have hrank := sum_update (f := s.members) (g := rank) (a := .dispatching) i
  have hended := sum_update (f := s.ended) (g := id) (a := s.ended i - 1) i
  have hdispatching : rank .dispatching = 4 := rfl
  simp only [id] at hended
  simp only [potential, setMember]
  omega

theorem potential_workerNotify (h : 0 < s.leaving i) :
    ({ s.notifyWaiters with
        leaving := Function.update s.leaving i (s.leaving i - 1)
        ended := Function.update s.ended i (s.ended i + 1) } : IdleFleet n).potential < s.potential := by
  have hleaving := sum_update (f := s.leaving) (g := id) (a := s.leaving i - 1) i
  have hended := sum_update (f := s.ended) (g := id) (a := s.ended i + 1) i
  have hrank := sum_rank_notified (s := s)
  simp only [id] at hleaving hended
  simp only [potential, notifyWaiters]
  have hone : ∑ j, s.leaving j = ∑ j, Function.update s.leaving i (s.leaving i - 1) j + 1 := by omega
  rw [hone, Nat.mul_add]
  omega

/-- **By themselves the members run down**, unless a permit that is given back wakes one. -/
theorem potential_step {e : FleetStep n} (hexternal : ¬ e.External) (hvain : ¬ s.WakesInVain e) :
    (s.step limit e).potential ≤ s.potential ∧
      (s.Dispatches e → (s.step limit e).potential < s.potential) := by
  have hset : ∀ {i m}, rank m < rank (s.members i) → (s.setMember i m).potential < s.potential := by
    intro i m hlt
    have hpotential := potential_setMember (s := s) (i := i) (m := m)
    omega
  cases e with
  | dispatch i =>
    by_cases hm : s.members i = .dispatching
    · have hdown : (s.step limit (.dispatch i)).potential < s.potential := by
        simp only [step, hm, if_true]
        split
        · split
          · exact hset (by rw [hm]; decide)
          · exact hset (by rw [hm]; decide)
        · exact hset (by rw [hm]; decide)
      exact ⟨hdown.le, fun _ => hdown⟩
    · rw [step, if_neg hm]
      exact ⟨le_rfl, fun h => absurd h hm⟩
  | giveBack i =>
    refine ⟨?_, nofun⟩
    rw [step]
    split
    · next hm => exact (hset (by rw [hm]; decide)).le
    · exact le_rfl
  | notify i =>
    refine ⟨?_, nofun⟩
    rw [step]
    split
    · next hm =>
      simp only [WakesInVain, hm, true_and, not_exists] at hvain
      rw [notifyWaiters_eq hvain]
      exact (hset (by rw [hm]; decide)).le
    · exact le_rfl
  | block i =>
    refine ⟨?_, nofun⟩
    rw [step]
    split
    · next hm => exact (hset (by rw [hm]; decide)).le
    · exact le_rfl
  | wake i =>
    refine ⟨?_, nofun⟩
    rw [step]
    split
    · next hm => exact (hset (by rw [hm]; decide)).le
    · exact le_rfl
  | join i =>
    refine ⟨?_, nofun⟩
    rw [step]
    split
    · split
      · next hended => exact (potential_join hended).le
      · exact le_rfl
    · exact le_rfl
  | workerNotify i =>
    refine ⟨?_, nofun⟩
    rw [step]
    split
    · next hleaving => exact (potential_workerNotify hleaving).le
    · exact le_rfl
  | tick i => exact absurd trivial hexternal
  | workerEnds i => exact absurd trivial hexternal

/-- Only a dispatch takes a permit in vain. -/
theorem permitsInVain_step {e : FleetStep n} (hdispatch : ¬ s.Dispatches e) :
    (s.step limit e).permitsInVain ≤ s.permitsInVain ∧
      (s.WakesInVain e → (s.step limit e).permitsInVain < s.permitsInVain) := by
  have hset : ∀ {i m}, hasPermit m ≤ hasPermit (s.members i) →
      (s.setMember i m).permitsInVain ≤ s.permitsInVain := by
    intro i m hle
    have hpermits := permitsInVain_setMember (s := s) (i := i) (m := m)
    omega
  cases e with
  | dispatch i =>
    have hm : s.members i ≠ .dispatching := hdispatch
    rw [step, if_neg hm]
    exact ⟨le_rfl, nofun⟩
  | giveBack i =>
    refine ⟨?_, nofun⟩
    rw [step]
    split
    · next hm => exact hset (by rw [hm]; decide)
    · exact le_rfl
  | notify i =>
    by_cases hm : s.members i = .releasing
    · have hpermits := permitsInVain_setMember (s := s.notifyWaiters) (i := i) (m := .settling)
      have hmember : s.notifyWaiters.members i = .releasing := by simp [notifyWaiters, hm,
        MemberLoop.notified]
      rw [hmember, permitsInVain_notifyWaiters] at hpermits
      have hdown : (s.step limit (.notify i)).permitsInVain < s.permitsInVain := by
        rw [step, if_pos hm]
        exact Nat.lt_of_succ_le hpermits.le
      exact ⟨hdown.le, fun _ => hdown⟩
    · rw [step, if_neg hm]
      exact ⟨le_rfl, fun h => absurd h.1 hm⟩
  | block i =>
    refine ⟨?_, nofun⟩
    rw [step]
    split
    · next hm => exact hset (by rw [hm]; decide)
    · exact le_rfl
  | wake i =>
    refine ⟨?_, nofun⟩
    rw [step]
    split
    · next hm => exact hset (by rw [hm]; decide)
    · exact le_rfl
  | join i =>
    refine ⟨?_, nofun⟩
    rw [step]
    split
    · split
      · exact hset (Nat.zero_le _)
      · exact le_rfl
    · exact le_rfl
  | workerNotify i =>
    refine ⟨?_, nofun⟩
    rw [step]
    split
    · exact permitsInVain_notifyWaiters.le
    · exact le_rfl
  | tick i =>
    refine ⟨?_, nofun⟩
    rw [step]
    split
    · exact hset (Nat.zero_le _)
    · exact le_rfl
  | workerEnds i =>
    refine ⟨?_, nofun⟩
    rw [step]
    split
    · exact le_rfl
    · exact le_rfl

/-! ## Quiescence -/

variable (s)

/-- From some time on no member calls `dispatch_available`. -/
def Quiesces (events : ℕ → FleetStep n) : Prop :=
  ∃ T, ∀ t ≥ T, ¬ (Transition.stateAt (step limit) s events t).Dispatches (events t)

/-- A fleet quiesces exactly if finitely many permits that were taken in vain wake a member. -/
theorem quiesces_iff (events : ℕ → FleetStep n) (hexternal : ∃ T, ∀ t ≥ T, ¬ (events t).External) :
    Quiesces limit s events ↔
      ∃ T, ∀ t ≥ T, ¬ (Transition.stateAt (step limit) s events t).WakesInVain (events t) := by
  constructor
  · rintro ⟨T, hquiet⟩
    refine Transition.finitely_often (T := T)
      (f := fun t => (Transition.stateAt (step limit) s events t).permitsInVain) ?_ ?_
    · exact fun t ht => (permitsInVain_step limit (hquiet t ht)).1
    · exact fun t ht => (permitsInVain_step limit (hquiet t ht)).2
  · rintro ⟨T, hvain⟩
    obtain ⟨T', hexternal⟩ := hexternal
    refine Transition.finitely_often (T := max T T')
      (f := fun t => (Transition.stateAt (step limit) s events t).potential) ?_ ?_
    · intro t ht
      exact (potential_step limit (hexternal t (le_of_max_le_right ht)) (hvain t (le_of_max_le_left ht))).1
    · intro t ht
      exact (potential_step limit (hexternal t (le_of_max_le_right ht)) (hvain t (le_of_max_le_left ht))).2

/-- A member alone wakes nobody, and quiesces. -/
theorem quiesces_alone (hn : n ≤ 1) (events : ℕ → FleetStep n)
    (hexternal : ∃ T, ∀ t ≥ T, ¬ (events t).External) : Quiesces limit s events := by
  refine (quiesces_iff limit s events hexternal).mpr ⟨0, fun t _ => ?_⟩
  cases events t with
  | notify i =>
    rintro ⟨hreleasing, j, hblocked⟩
    have hij : i = j := Fin.ext (by omega)
    rw [hij, hblocked] at hreleasing
    cases hreleasing
  | _ => exact id

/-! ## Dispatching for ever

Members that take turns wake each other without end, whatever the limits and however many permits there
are. -/

section
variable {limit s} {i j : Fin n}

/-- Once round the loop of a member, from the wakeup that its `select` awaits. -/
def round (i : Fin n) : List (FleetStep n) := [.wake i, .dispatch i, .giveBack i, .notify i, .block i]

/-- The members go round their loops in turn. -/
def inTurn (cursor : Fin n) (t : ℕ) : FleetStep n :=
  (round (turn cursor (t / 5))).getD (t % 5) (.wake (turn cursor (t / 5)))

/-- It is `i`'s turn, and nobody sleeps but the member that was served last. -/
structure Circling (limit : Fin n → ℕ) (i : Fin n) (s : IdleFleet n) : Prop where
  cursor : s.state.cursor = i
  free : 0 < s.state.available
  below : ∀ j, s.runs j < limit j
  awake : ∀ j, s.members j = .dispatching ∨ s.members j = .blocked true ∨
    behind j = i ∧ s.members j = .blocked false

theorem Circling.grants (H : Circling limit i s) : s.state.Grants i := by
  refine ⟨H.free, fun j _ => ?_⟩
  rw [H.cursor, RoundRobin.distance_self]
  exact Nat.zero_le _

theorem Circling.wake (hn : 2 ≤ n) (H : Circling limit i s) :
    s.step limit (.wake i) = s.setMember i .dispatching := by
  rcases H.awake i with h | h | ⟨hlast, -⟩
  · have hsame : s.setMember i .dispatching = s := by
      rw [setMember, ← h, Function.update_eq_self]
    rw [step, if_neg (by simp [h]), hsame]
  · rw [step, if_pos h]
  · exact absurd hlast (RoundRobin.behind_ne hn)

theorem setMember_setMember : (s.setMember i m).setMember i m' = s.setMember i m' := by
  simp [setMember]

theorem step_dispatch_granted (hm : s.members i = .dispatching) (hbelow : s.runs i < limit i)
    (hgrants : s.state.Grants i) : s.step limit (.dispatch i) =
      { s.setMember i .holding with
        state := ⟨s.state.available - 1, behind i, Function.update s.state.waiting i false⟩ } := by
  rw [step, if_pos hm, if_pos hbelow, FleetAdmissionState.tryAcquire_granted hgrants]

/-- The permit is taken and given back, and everyone else is woken. -/
theorem Circling.run_round (hn : 2 ≤ n) (H : Circling limit i s) : Transition.run (step limit) s (round i) =
    { s with
      state := ⟨s.state.available, behind i, Function.update s.state.waiting i false⟩
      members := Function.update (fun j => (s.members j).notified) i (.blocked false) } := by
  have hfree := H.free
  have hdispatch : (s.setMember i .dispatching).step limit (.dispatch i) =
      { s.setMember i .holding with
        state := ⟨s.state.available - 1, behind i, Function.update s.state.waiting i false⟩ } := by
    have hmember : (s.setMember i .dispatching).members i = .dispatching := Function.update_self ..
    rw [step_dispatch_granted hmember (H.below i) H.grants, setMember_setMember]
    rfl
  rw [round, Transition.run_cons, H.wake hn, Transition.run_cons, hdispatch]
  ext1 <;> simp [step, setMember, notifyWaiters, FleetAdmissionState.giveBack, MemberLoop.notified]
  · omega
  · funext j
    by_cases hj : j = i <;> simp [hj]

theorem Circling.again (hn : 2 ≤ n) (H : Circling limit i s) :
    Circling limit (behind i) (Transition.run (step limit) s (round i)) := by
  rw [H.run_round hn]
  refine ⟨rfl, H.free, H.below, fun j => ?_⟩
  by_cases hj : j = i
  · exact .inr (.inr ⟨by rw [hj], by simp [hj]⟩)
  · simp only [Function.update_of_ne hj]
    rcases H.awake j with h | h | ⟨-, h⟩
    · exact .inl (by rw [h]; rfl)
    · exact .inr (.inl (by rw [h]; rfl))
    · exact .inr (.inl (by rw [h]; rfl))

theorem window_inTurn (cursor : Fin n) (k : ℕ) :
    Transition.window (inTurn cursor) (5 * k) 5 = round (turn cursor k) := by
  have hdiv : ∀ r < 5, (5 * k + r) / 5 = k ∧ (5 * k + r) % 5 = r := fun r hr => ⟨by omega, by omega⟩
  simp only [Transition.window, List.range_succ, List.range_zero, List.nil_append, List.map_cons, List.map_nil,
    List.cons_append, inTurn, round]
  simp [hdiv]

theorem Circling.after (hn : 2 ≤ n) (H : Circling limit i s) (k : ℕ) :
    Circling limit (turn i k) (Transition.stateAt (step limit) s (inTurn i) (5 * k)) := by
  induction k with
  | zero => exact H
  | succ k ih =>
    rw [Nat.mul_succ, Transition.stateAt_add, window_inTurn]
    exact ih.again hn

/-- Every member calls `dispatch_available` again and again. -/
theorem Circling.dispatches (hn : 2 ≤ n) (H : Circling limit i s) (j : Fin n) (T : ℕ) :
    ∃ t ≥ T, inTurn i t = .dispatch j ∧
      (Transition.stateAt (step limit) s (inTurn i) t).members j = .dispatching := by
  obtain ⟨k, hk, rfl⟩ := RoundRobin.exists_turn i j T
  have hwake : inTurn i (5 * k) = .wake (turn i k) := by simp [inTurn, round]
  refine ⟨5 * k + 1, by omega, ?_, ?_⟩
  · simp [inTurn, round, show (5 * k + 1) / 5 = k by omega, show (5 * k + 1) % 5 = 1 by omega]
  · rw [Transition.stateAt, hwake, (H.after hn k).wake hn]
    simp [setMember]

theorem inTurn_internal (cursor : Fin n) (t : ℕ) : ¬ (inTurn cursor t).External := by
  have hmod : t % 5 = 0 ∨ t % 5 = 1 ∨ t % 5 = 2 ∨ t % 5 = 3 ∨ t % 5 = 4 := by omega
  rcases hmod with h | h | h | h | h <;> simp [inTurn, round, h, FleetStep.External]

/-! ### Before the first turn

Every worker ends, and every member comes to its next call of `dispatch_available`. -/

/-- The rest of the loop of a member, up to its `select`. -/
def lap (i : Fin n) : List (FleetStep n) := [.dispatch i, .giveBack i, .notify i, .block i]

/-- What the events keep while a member is brought to its `select`. -/
structure Keeps (i : Fin n) (s s' : IdleFleet n) : Prop where
  workers : s'.workers = s.workers
  leaving : s'.leaving = s.leaving
  ended : s'.ended = s.ended
  free : 0 < s.state.available → 0 < s'.state.available
  others : ∀ j ≠ i, s.members j = .dispatching → s'.members j = .dispatching

theorem Keeps.refl : Keeps i s s := ⟨rfl, rfl, rfl, id, fun _ _ h => h⟩

theorem Keeps.trans {s' s'' : IdleFleet n} (h : Keeps i s s') (h' : Keeps i s' s'') : Keeps i s s'' :=
  ⟨h'.workers.trans h.workers, h'.leaving.trans h.leaving, h'.ended.trans h.ended, fun hs => h'.free (h.free hs),
    fun j hj hm => h'.others j hj (h.others j hj hm)⟩

theorem Keeps.setMember : Keeps i s (s.setMember i m) :=
  ⟨rfl, rfl, rfl, id, fun j hj hm => by simpa [IdleFleet.setMember, hj] using hm⟩

/-- The events bring the member to its `select`. -/
def Settles (limit : Fin n → ℕ) (i : Fin n) (es : List (FleetStep n)) (s : IdleFleet n) : Prop :=
  Keeps i s (Transition.run (step limit) s es) ∧
    ∃ woken, (Transition.run (step limit) s es).members i = .blocked woken

theorem Settles.nil (h : s.members i = .blocked woken) : Settles limit i [] s := ⟨.refl, woken, h⟩

theorem Settles.cons {s' : IdleFleet n} (hstep : s.step limit e = s') (h : Keeps i s s')
    (h' : Settles limit i es s') : Settles limit i (e :: es) s := by
  subst hstep
  exact ⟨h.trans h'.1, h'.2⟩

theorem settles_block (h : s.members i = .settling ∨ ∃ woken, s.members i = .blocked woken) :
    Settles limit i [.block i] s := by
  rcases h with h | ⟨woken, h⟩
  · exact .cons (if_pos h) .setMember (.nil (Function.update_self ..))
  · exact .cons (if_neg (by simp [h])) .refl (.nil h)

theorem settles_notify (h : s.members i = .releasing ∨ s.members i = .settling ∨
      ∃ woken, s.members i = .blocked woken) : Settles limit i [.notify i, .block i] s := by
  by_cases hm : s.members i = .releasing
  · have hnotify : Keeps i s s.notifyWaiters :=
      ⟨rfl, rfl, rfl, id, fun j _ hj => by simp [notifyWaiters, hj, MemberLoop.notified]⟩
    exact .cons (if_pos hm) (hnotify.trans .setMember) (settles_block (.inl (Function.update_self ..)))
  · exact .cons (if_neg hm) .refl (settles_block (h.resolve_left hm))

theorem settles_giveBack (h : s.members i ≠ .dispatching) :
    Settles limit i [.giveBack i, .notify i, .block i] s := by
  by_cases hm : s.members i = .holding
  · have hkeeps : Keeps i s { s.setMember i .releasing with state := s.state.giveBack } :=
      ⟨rfl, rfl, rfl, fun _ => Nat.succ_pos _, Keeps.setMember.others⟩
    exact .cons (if_pos hm) hkeeps (settles_notify (.inl (Function.update_self ..)))
  · refine .cons (if_neg hm) .refl (settles_notify ?_)
    cases hloop : s.members i with
    | dispatching => exact absurd hloop h
    | holding => exact absurd hloop hm
    | releasing => exact .inl rfl
    | settling => exact .inr (.inl rfl)
    | blocked woken => exact .inr (.inr ⟨woken, rfl⟩)

/-- A permit is taken and given back. -/
def givenBack (s : IdleFleet n) (i : Fin n) : IdleFleet n :=
  { s.setMember i .releasing with
    state := ⟨s.state.available - 1 + 1, behind i, Function.update s.state.waiting i false⟩ }

theorem giveBack_granted (hm : s.members i = .dispatching) (hbelow : s.runs i < limit i)
    (hgrants : s.state.Grants i) :
    (s.step limit (.dispatch i)).step limit (.giveBack i) = s.givenBack i := by
  rw [step_dispatch_granted hm hbelow hgrants]
  simp [step, setMember, givenBack, FleetAdmissionState.giveBack]

/-- Without a permit the member goes on to its `select`. -/
theorem step_dispatch_refused (hm : s.members i = .dispatching) (h : ¬ (s.runs i < limit i ∧ s.state.Grants i)) :
    ∃ state : FleetAdmissionState n, state.available = s.state.available ∧
      s.step limit (.dispatch i) = { s.setMember i .settling with state := state } := by
  rw [step, if_pos hm]
  by_cases hbelow : s.runs i < limit i
  · have hrefused : ¬ s.state.Grants i := fun hgrants => h ⟨hbelow, hgrants⟩
    rw [if_pos hbelow, FleetAdmissionState.tryAcquire_refused hrefused]
    exact ⟨s.state.markWaiting i, rfl, rfl⟩
  · rw [if_neg hbelow]
    exact ⟨s.state, rfl, rfl⟩

theorem settles_lap (s : IdleFleet n) (i : Fin n) : Settles limit i (lap i) s := by
  by_cases hm : s.members i = .dispatching
  · by_cases hgranted : s.runs i < limit i ∧ s.state.Grants i
    · -- between the first two steps no permit may be free
      have hkeeps : Keeps i s (s.givenBack i) :=
        ⟨rfl, rfl, rfl, fun _ => Nat.succ_pos _, Keeps.setMember.others⟩
      have hrest : Settles limit i [.notify i, .block i] (s.givenBack i) :=
        settles_notify (.inl (Function.update_self ..))
      rw [← giveBack_granted hm hgranted.1 hgranted.2] at hkeeps hrest
      exact ⟨hkeeps.trans hrest.1, hrest.2⟩
    · obtain ⟨state, hfree, hstep⟩ := step_dispatch_refused hm hgranted
      have hkeeps : Keeps i s { s.setMember i .settling with state := state } :=
        ⟨rfl, rfl, rfl, fun h => hfree.symm ▸ h, Keeps.setMember.others⟩
      refine .cons hstep hkeeps (settles_giveBack ?_)
      simp [setMember]
  · exact .cons (if_neg hm) .refl (settles_giveBack hm)

/-- The events lead to a state in which a permit is still free. -/
def Leads (limit : Fin n → ℕ) (s : IdleFleet n) (P : IdleFleet n → Prop) : Prop :=
  ∃ es, 0 < (Transition.run (step limit) s es).state.available ∧ P (Transition.run (step limit) s es)

theorem Leads.of_run {P : IdleFleet n → Prop} (es : List (FleetStep n))
    (h : Leads limit (Transition.run (step limit) s es) P) : Leads limit s P := by
  obtain ⟨late, h⟩ := h
  refine ⟨es ++ late, ?_⟩
  rwa [Transition.run_append]

/-- What the workers can still do, as long as no new ones are started. -/
def remaining (s : IdleFleet n) : ℕ := ∑ i, (3 * s.workers i + 2 * s.leaving i + s.ended i)

theorem remaining_lt {s' : IdleFleet n} (i : Fin n)
    (hi : 3 * s'.workers i + 2 * s'.leaving i + s'.ended i < 3 * s.workers i + 2 * s.leaving i + s.ended i)
    (hothers : ∀ j ≠ i, s'.workers j = s.workers j ∧ s'.leaving j = s.leaving j ∧ s'.ended j = s.ended j) :
    s'.remaining < s.remaining := by
  refine Finset.sum_lt_sum (fun j _ => ?_) ⟨i, Finset.mem_univ i, hi⟩
  by_cases hj : j = i
  · exact hj ▸ hi.le
  · obtain ⟨hworkers, hleaving, hended⟩ := hothers j hj
    rw [hworkers, hleaving, hended]

/-- **All workers can end**, and be joined. -/
theorem leads_drained (hfree : 0 < s.state.available) : Leads limit s fun s => ∀ i, s.runs i = 0 := by
  induction hremaining : s.remaining using Nat.strongRecOn generalizing s with
  | ind m ih =>
    subst hremaining
    by_cases hdrained : ∀ i, s.runs i = 0
    · exact ⟨[], hfree, hdrained⟩
    push Not at hdrained
    obtain ⟨i, hi⟩ := hdrained
    by_cases hworkers : 0 < s.workers i
    · have hstep : s.step limit (.workerEnds i) = _ := if_pos hworkers
      refine Leads.of_run [.workerEnds i] (ih _ (remaining_lt i ?_ fun j hj => ?_) ?_ rfl)
      all_goals simp only [Transition.run_cons, Transition.run_nil, hstep]
      · simp only [Function.update_self]
        omega
      · simp [hj]
      · exact Nat.succ_pos _
    by_cases hleaving : 0 < s.leaving i
    · have hstep : s.step limit (.workerNotify i) = _ := if_pos hleaving
      refine Leads.of_run [.workerNotify i] (ih _ (remaining_lt i ?_ fun j hj => ?_) ?_ rfl)
      all_goals simp only [Transition.run_cons, Transition.run_nil, hstep]
      · simp only [notifyWaiters, Function.update_self]
        omega
      · simp [notifyWaiters, hj]
      · exact hfree
    -- the member joins a worker in its `select`
    obtain ⟨hkeeps, woken, hblocked⟩ : Settles limit i (lap i) s := settles_lap s i
    refine Leads.of_run (lap i) ?_
    generalize Transition.run (step limit) s (lap i) = s' at hkeeps hblocked ⊢
    have hended : 0 < s'.ended i := by
      rw [hkeeps.ended]
      simp only [runs] at hi
      omega
    have hstep : s'.step limit (.join i) = { s'.setMember i .dispatching with
        ended := Function.update s'.ended i (s'.ended i - 1) } := by
      simp [step, hblocked, hended]
    refine Leads.of_run [.join i] (ih _ (remaining_lt i ?_ fun j hj => ?_) ?_ rfl)
    all_goals simp only [Transition.run_cons, Transition.run_nil, hstep]
    · simp only [setMember, Function.update_self, hkeeps.workers, hkeeps.leaving, ← hkeeps.ended]
      omega
    · simp [setMember, hj, hkeeps.workers, hkeeps.leaving, hkeeps.ended]
    · exact hkeeps.free hfree

theorem Leads.trans {P Q : IdleFleet n → Prop} (h : Leads limit s P)
    (h' : ∀ s, 0 < s.state.available → P s → Leads limit s Q) : Leads limit s Q := by
  obtain ⟨es, hfree, hP⟩ := h
  exact .of_run es (h' _ hfree hP)

/-- The timers of the members can tick. -/
theorem leads_dispatching (hfree : 0 < s.state.available) (hdrained : ∀ i, s.runs i = 0) (l : List (Fin n)) :
    Leads limit s fun s => (∀ i, s.runs i = 0) ∧ ∀ i ∈ l, s.members i = .dispatching := by
  induction l with
  | nil => exact ⟨[], hfree, hdrained, nofun⟩
  | cons i l ih =>
    refine ih.trans fun s hfree ⟨hdrained, hl⟩ => ?_
    obtain ⟨hkeeps, woken, hblocked⟩ : Settles limit i (lap i) s := settles_lap s i
    refine Leads.of_run (lap i) ?_
    generalize Transition.run (step limit) s (lap i) = s' at hkeeps hblocked ⊢
    have hstep : Transition.run (step limit) s' [.tick i] = s'.setMember i .dispatching := by
      simp [step, hblocked]
    refine ⟨[.tick i], ?_⟩
    rw [hstep]
    refine ⟨hkeeps.free hfree, fun j => ?_, fun j hj => ?_⟩
    · have hruns := hdrained j
      simp only [runs, setMember, hkeeps.workers, hkeeps.leaving, hkeeps.ended] at hruns ⊢
      exact hruns
    · by_cases hji : j = i
      · simp [setMember, hji]
      · have hmember := hkeeps.others j hji (hl j ((List.mem_cons.mp hj).resolve_left hji))
        simpa [setMember, hji] using hmember

theorem leads_circling (hlimit : ∀ i, 0 < limit i) (hfree : 0 < s.state.available) :
    Leads limit s fun s => Circling limit s.state.cursor s := by
  refine (leads_drained hfree).trans fun s hfree hdrained =>
    (leads_dispatching hfree hdrained (List.finRange n)).trans fun s hfree ⟨hdrained, hmembers⟩ => ?_
  exact ⟨[], hfree, rfl, hfree, fun j => (hdrained j).symm ▸ hlimit j,
    fun j => .inl (hmembers j (List.mem_finRange j))⟩

end

/-- **No idle fleet quiesces in every schedule.** Whatever its members and workers are at, and however
many permits are free, it can go on after finitely many events from outside so that every member calls
`dispatch_available` again and again. -/
theorem never_quiesces (limit : Fin n → ℕ) (s : IdleFleet n) (hn : 2 ≤ n) (hlimit : ∀ i, 0 < limit i)
    (hfree : 0 < s.state.available) : ∃ events : ℕ → FleetStep n,
      (∃ T, ∀ t ≥ T, ¬ (events t).External) ∧ ¬ Quiesces limit s events ∧
      ∀ i T, ∃ t ≥ T, events t = .dispatch i ∧
        (Transition.stateAt (step limit) s events t).members i = .dispatching := by
  obtain ⟨es, -, H⟩ : Leads limit s _ := leads_circling hlimit hfree
  set cursor := (Transition.run (step limit) s es).state.cursor
  have hdispatches : ∀ i T, ∃ t ≥ T, Transition.prepend es (inTurn cursor) t = .dispatch i ∧
      (Transition.stateAt (step limit) s (Transition.prepend es (inTurn cursor)) t).members i = .dispatching := by
    intro i T
    obtain ⟨t, ht, hevent, hmember⟩ := H.dispatches hn i T
    refine ⟨es.length + t, by omega, Transition.prepend_add.trans hevent, ?_⟩
    rwa [Transition.stateAt_prepend]
  refine ⟨Transition.prepend es (inTurn cursor), ⟨es.length, fun t ht => ?_⟩, fun ⟨T, hquiet⟩ => ?_,
    hdispatches⟩
  · obtain ⟨u, rfl⟩ := Nat.exists_eq_add_of_le ht
    rw [Transition.prepend_add]
    exact inTurn_internal cursor u
  · obtain ⟨t, ht, hevent, hmember⟩ := hdispatches ⟨0, by omega⟩ T
    refine hquiet t ht ?_
    rw [hevent]
    exact hmember

/-- One member sleeps, and the worker of another one is at work. -/
def idleTrio : IdleFleet 3 where
  state := ⟨1, 0, fun _ => false⟩
  members i := if i = 0 then .blocked false else .dispatching
  workers i := if i = 1 then 1 else 0

theorem never_quiesces_idleTrio : ∃ events : ℕ → FleetStep 3,
    (∃ T, ∀ t ≥ T, ¬ (events t).External) ∧ ¬ Quiesces (fun _ => 1) idleTrio events ∧
    ∀ i T, ∃ t ≥ T, events t = .dispatch i ∧
      (Transition.stateAt (step fun _ => 1) idleTrio events t).members i = .dispatching :=
  never_quiesces (fun _ => 1) idleTrio (by decide) (by decide) (by decide)

/-! Two members that share one permit; no event ever comes from outside. -/

def idlePair : IdleFleet 2 := { state := ⟨1, 0, fun _ => false⟩, members := fun _ => .dispatching }

/-- The second member dispatches first and is blocked. Then the first one wakes it, is blocked, and
is woken by it. -/
def wakeEachOther : ℕ → FleetStep 2
  | 0 => .dispatch 1
  | 1 => .giveBack 1
  | 2 => .notify 1
  | 3 => .block 1
  | t + 4 => [.dispatch 0, .giveBack 0, .notify 0, .block 0, .wake 1, .dispatch 1, .giveBack 1, .notify 1,
      .block 1].getD (t % 10) (.wake 0)

theorem wakeEachOther_mod : wakeEachOther (4 + t) = wakeEachOther (4 + t % 10) := by
  rw [Nat.add_comm 4, Nat.add_comm 4]
  simp only [wakeEachOther, Nat.mod_mod]

/-- After every ten steps the two members are where they were. -/
theorem stateAt_wakeEachOther : Transition.stateAt (step fun _ => 1) idlePair wakeEachOther (4 + 10 * k) =
    Transition.stateAt (step fun _ => 1) idlePair wakeEachOther 4 := by
  rw [Transition.stateAt_shift, Transition.stateAt_mod (p := 10) (fun t => ?_) (by decide),
    Nat.mul_mod_right]
  · rfl
  · rw [wakeEachOther_mod, Nat.add_mod_right, ← wakeEachOther_mod]

/-- Two members wake each other for ever. -/
theorem pair_not_quiet : ¬ ∀ (n : ℕ) (limit : Fin n → ℕ) (state : FleetAdmissionState n)
    (events : ℕ → FleetStep n), 2 ≤ n → (∀ i, 0 < limit i) → 0 < state.available →
    (∃ T, ∀ t ≥ T, ¬ (events t).External) →
    Quiesces limit { state := state, members := fun _ => .dispatching } events := by
  intro h
  have hexternal : ∀ t ≥ 4, ¬ (wakeEachOther t).External := by
    intro t ht
    obtain ⟨u, rfl⟩ := Nat.exists_eq_add_of_le ht
    have hcycle : ∀ r < 10, ¬ (wakeEachOther (4 + r)).External := by decide
    rw [wakeEachOther_mod]
    exact hcycle _ (Nat.mod_lt _ (by decide))
  obtain ⟨T, hquiet⟩ := h 2 (fun _ => 1) ⟨1, 0, fun _ => false⟩ wakeEachOther le_rfl (by decide) (by decide)
    ⟨4, hexternal⟩
  refine hquiet (4 + 10 * T) (by omega) ?_
  change (Transition.stateAt (step fun _ => 1) idlePair wakeEachOther (4 + 10 * T)).Dispatches _
  rw [stateAt_wakeEachOther, wakeEachOther_mod, Nat.mul_mod_right]
  change (Transition.stateAt (step fun _ => 1) idlePair wakeEachOther 4).members 0 = .dispatching
  decide

end IdleFleet

end FlashyFactory
