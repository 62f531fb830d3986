import FlashyFactory.Sandbox.Monitor

/-! # The invariant of the sandboxes

`Inv` relates the world to the watches of the processes. It is stated run by run (`RunInv`): a
command changes what belongs to one run and leaves the others as they are, and a run has one
worker at most, or a recovery that has taken it over. -/

namespace FlashyFactory
open Process

def RunSandbox.Closed (row : RunSandbox) : Prop := row.state = .removing ∨ row.removedAt.isSome = true

namespace World

/-- The sandbox exists, and its row is not marked removed. -/
def Holds (S : SandboxWorker) (w : World) (r : ℕ) : Prop :=
  sandboxName S.instanceId r ∈ w.sandboxes ∧ ∃ row, w.row r = some row ∧ row.removedAt = none

/-! ## The invariant of a run -/

abbrev Watches := Machine.Watches ℕ Role Watch

/-- The process runs `execute_sandbox_task` for the run. -/
def WorksOn (ms : Watches) (p r : ℕ) (m : Watch) : Prop :=
  ∃ clone prompt now, ms p = some (.worker r clone prompt now, m)

/-- The worker of the run is gone. -/
def Abandoned (w : World) (ms : Watches) (r : ℕ) : Prop :=
  r ∈ w.launched ∧ ∀ p m, ¬ WorksOn ms p r m

/-- The sandbox of the run may go, now and later. -/
structure Settled (S : SandboxWorker) (w : World) (ms : Watches) (r : ℕ) : Prop where
  launched : r ∈ w.launched
  kept : w.spawned (sandboxName S.instanceId r) = true →
    w.preserved (sandboxName S.instanceId r) = true
  past : ∀ p m, WorksOn ms p r m → m.phase.maySpawn = false

/-- What a worker knows of its run. -/
def PhaseAt (S : SandboxWorker) (w : World) (r : ℕ) : Phase → Prop
  | .fresh | .dropped => w.spawned (sandboxName S.instanceId r) = false
  | .recorded => w.spawned (sandboxName S.instanceId r) = false ∧
    ∃ row, w.row r = some row ∧ row.removedAt = none
  | .made => w.spawned (sandboxName S.instanceId r) = false ∧ w.Holds S r
  | .ready => w.spawned (sandboxName S.instanceId r) = false ∧
    sandboxName S.instanceId r ∈ w.sandboxes ∧
    ∃ row, w.row r = some row ∧ row.state = .created ∧ row.removedAt = none
  | .started => ∃ row, w.row r = some row ∧ row.state = .created ∧ row.removedAt = none
  | .closing => True

/-- What a recovery knows of the run. -/
structure RecoveryAt (S : SandboxWorker) (w : World) (ms : Watches) (r : ℕ) (m : Watch) : Prop where
  read : r ∈ m.read → r ∈ w.launched
  taken : r ∈ m.taken → Abandoned w ms r
  seen : r ∈ m.seen → Settled S w ms r
  handoff : ∀ h, m.handoff = some h → h.name = sandboxName S.instanceId r → r ∈ m.taken
  restored : m.handoff = some (.restored (sandboxName S.instanceId r)) →
    w.preserved (sandboxName S.instanceId r) = true

structure RunInv (S : SandboxWorker) (w : World) (ms : Watches) (r : ℕ) : Prop where
  row : ∀ {row}, w.row r = some row → r ∈ w.launched ∧ row.sandboxName = sandboxName S.instanceId r
  recorded : sandboxName S.instanceId r ∈ w.sandboxes → (w.row r).isSome = true
  spawned : w.spawned (sandboxName S.instanceId r) = true → r ∈ w.launched
  unique : ∀ {p q m m'}, WorksOn ms p r m → WorksOn ms q r m' → p = q
  closed : ∀ {row}, w.row r = some row → row.Closed → Settled S w ms r
  kept : w.spawned (sandboxName S.instanceId r) = true →
    w.preserved (sandboxName S.instanceId r) = true ∨ w.Holds S r
  worker : ∀ {p m}, WorksOn ms p r m → r ∈ w.launched ∧ PhaseAt S w r m.phase ∧
    (m.handoff = some (.restored (sandboxName S.instanceId r)) →
      w.preserved (sandboxName S.instanceId r) = true)
  recovery : ∀ {p m}, ms p = some (.recovery, m) → RecoveryAt S w ms r m

/-- A process hands over its own sandbox, or one that it has taken over. -/
def Owned (S : SandboxWorker) (m : Watch) (h : Handoff) : Role → Prop
  | .worker r _ _ _ => h.name = sandboxName S.instanceId r
  | .recovery => ∃ r ∈ m.taken, h.name = sandboxName S.instanceId r

structure Inv (S : SandboxWorker) (w : World) (ms : Watches) : Prop where
  run : ∀ r, RunInv S w ms r
  handoff : ∀ {p role m}, ms p = some (role, m) → w.handoff p = m.handoff
  owned : ∀ {p role m h}, ms p = some (role, m) → m.handoff = some h → Owned S m h role

variable {S : SandboxWorker} {w w' : World} {ms ms' : Watches} {p q r r' : ℕ} {m m' : Watch}
  {role : Role}

/-! ## Frame -/

/-- What belongs to the run is the same in both worlds. -/
structure SameRun (S : SandboxWorker) (r : ℕ) (w w' : World) : Prop where
  row : w'.row r = w.row r
  launched : r ∈ w'.launched ↔ r ∈ w.launched
  sandboxes : sandboxName S.instanceId r ∈ w'.sandboxes ↔ sandboxName S.instanceId r ∈ w.sandboxes
  spawned : w'.spawned (sandboxName S.instanceId r) = w.spawned (sandboxName S.instanceId r)
  preserved : w'.preserved (sandboxName S.instanceId r) = w.preserved (sandboxName S.instanceId r)

theorem SameRun.refl : SameRun S r w w := ⟨rfl, .rfl, .rfl, rfl, rfl⟩

/-- What the process knows of the run is the same, or has been true already. -/
def SameWatch (S : SandboxWorker) (w : World) (ms : Watches) (r : ℕ) : Role → Watch → Watch → Prop
  | .worker r' _ _ _, m, m' => r' = r → m'.phase = m.phase ∧ m'.handoff = m.handoff
  | .recovery, m, m' => (r ∈ m'.read → r ∈ m.read ∨ r ∈ w.launched) ∧ (r ∈ m'.taken ↔ r ∈ m.taken) ∧
    (r ∈ m'.seen → r ∈ m.seen ∨ Settled S w ms r) ∧
    ∀ h, m'.handoff = some h → h.name = sandboxName S.instanceId r → m.handoff = some h

theorem SameWatch.refl : SameWatch S w ms r role m m := by
  cases role with
  | worker => exact fun _ => ⟨rfl, rfl⟩
  | recovery => exact ⟨.inl, .rfl, .inl, fun _ h _ => h⟩

/-- The process knows nothing of the run. -/
def Unaware (r : ℕ) : Role → Watch → Prop
  | .worker r' _ _ _, _ => r' ≠ r
  | .recovery, m => m = {}

theorem PhaseAt.frame {phase : Phase} (hw : SameRun S r w w') (h : PhaseAt S w r phase) :
    PhaseAt S w' r phase := by
  cases phase with
  | closing => trivial
  | _ => simpa only [PhaseAt, Holds, hw.row, hw.sandboxes, hw.spawned] using h

theorem RunInv.frame (H : RunInv S w ms r) (hw : SameRun S r w w')
    (hms : ∀ {q role m'}, ms' q = some (role, m') →
      Unaware r role m' ∨ ∃ m, ms q = some (role, m) ∧ SameWatch S w ms r role m m') :
    RunInv S w' ms' r := by
  have hworks : ∀ {q m'}, WorksOn ms' q r m' →
      ∃ m, WorksOn ms q r m ∧ m'.phase = m.phase ∧ m'.handoff = m.handoff := by
    rintro q m' ⟨clone, prompt, now, hq⟩
    rcases hms hq with h | ⟨m, hm, hsame⟩
    · exact (h rfl).elim
    · exact ⟨m, ⟨clone, prompt, now, hm⟩, hsame rfl⟩
  have hsettled : Settled S w ms r → Settled S w' ms' r := by
    intro h
    refine ⟨hw.launched.mpr h.launched, by rw [hw.spawned, hw.preserved]; exact h.kept, ?_⟩
    intro q m' hq
    obtain ⟨m, hm, hphase, -⟩ := hworks hq
    rw [hphase]
    exact h.past q m hm
  refine ⟨fun hrow => ?_, fun hn => ?_, fun hs => ?_, fun hq hq' => ?_, fun hrow hc => ?_,
    fun hs => ?_, fun hq => ?_, fun {q m'} hq => ?_⟩
  · rw [hw.row] at hrow
    exact ⟨hw.launched.mpr (H.row hrow).1, (H.row hrow).2⟩
  · rw [hw.row]
    exact H.recorded (hw.sandboxes.mp hn)
  · exact hw.launched.mpr (H.spawned (hw.spawned ▸ hs))
  · obtain ⟨_, hm, -⟩ := hworks hq
    obtain ⟨_, hm', -⟩ := hworks hq'
    exact H.unique hm hm'
  · rw [hw.row] at hrow
    exact hsettled (H.closed hrow hc)
  · simp only [Holds, hw.preserved, hw.sandboxes, hw.row]
    exact H.kept (hw.spawned ▸ hs)
  · obtain ⟨m, hm, hphase, hhandoff⟩ := hworks hq
    obtain ⟨hl, hat, hr⟩ := H.worker hm
    rw [hphase, hhandoff, hw.preserved]
    exact ⟨hw.launched.mpr hl, hat.frame hw, hr⟩
  · rcases hms hq with rfl | ⟨m, hm, hread, htaken, hseen, hhandoff⟩
    · exact ⟨nofun, nofun, nofun, nofun, nofun⟩
    have R := H.recovery hm
    refine ⟨fun h => hw.launched.mpr ((hread h).elim R.read id), fun h => ?_,
      fun h => hsettled ((hseen h).elim R.seen id),
      fun h hh hn => htaken.mpr (R.handoff h (hhandoff h hh hn) hn), fun h => ?_⟩
    · refine ⟨hw.launched.mpr (R.taken (htaken.mp h)).1, fun q m' hq => ?_⟩
      obtain ⟨m, hm, -⟩ := hworks hq
      exact (R.taken (htaken.mp h)).2 q m hm
    · rw [hw.preserved]
      exact R.restored (hhandoff _ h rfl)

/-! ## One step of a process -/

theorem update_cases {x : Role × Watch} (h : Function.update ms p (some x) q = some y) :
    q = p ∧ y = x ∨ q ≠ p ∧ ms q = some y := by
  by_cases hq : q = p
  · subst hq
    exact .inl ⟨rfl, by simpa using h.symm⟩
  · exact .inr ⟨hq, by simpa [hq] using h⟩

/-- The processes beside `p` are the same; `p` keeps its role. -/
theorem worksOn_update (h : WorksOn (Function.update ms p (some (role, m'))) q r m) :
    q = p ∧ m = m' ∧ (∃ clone prompt now, role = .worker r clone prompt now) ∨
      q ≠ p ∧ WorksOn ms q r m := by
  obtain ⟨clone, prompt, now, hq⟩ := h
  rcases update_cases hq with ⟨rfl, hy⟩ | ⟨hne, hq⟩
  · obtain ⟨rfl, rfl⟩ := Prod.mk.inj hy
    exact .inl ⟨rfl, rfl, _, _, _, rfl⟩
  · exact .inr ⟨hne, _, _, _, hq⟩

/-- The part of the invariant that is about the world. -/
structure Facts (S : SandboxWorker) (w : World) (r : ℕ) : Prop where
  row : ∀ {row}, w.row r = some row → row.sandboxName = sandboxName S.instanceId r
  recorded : sandboxName S.instanceId r ∈ w.sandboxes → (w.row r).isSome = true
  kept : w.spawned (sandboxName S.instanceId r) = true →
    w.preserved (sandboxName S.instanceId r) = true ∨ w.Holds S r

theorem RunInv.facts (H : RunInv S w ms r) : Facts S w r := ⟨fun h => (H.row h).2, H.recorded, H.kept⟩

/-- The work of the run's agent, if there is any, is handed over. -/
def Delivered (S : SandboxWorker) (w : World) (r : ℕ) : Prop :=
  w.spawned (sandboxName S.instanceId r) = true → w.preserved (sandboxName S.instanceId r) = true

/-- What a command of the worker of the run does to the world, with the watch going from `m`
to `m'`. -/
structure WorkerStep (S : SandboxWorker) (w w' : World) (r : ℕ) (m m' : Watch) : Prop where
  others : ∀ r' ≠ r, SameRun S r' w w'
  launched : w'.launched = w.launched
  facts : Facts S w' r
  closed : ∀ row, w'.row r = some row → row.Closed → Delivered S w' r ∧ m'.phase.maySpawn = false
  past : m.phase.maySpawn = false → Delivered S w r → Delivered S w' r ∧ m'.phase.maySpawn = false
  phase : PhaseAt S w' r m'.phase
  restored : m'.handoff = some (.restored (sandboxName S.instanceId r)) →
    w'.preserved (sandboxName S.instanceId r) = true

theorem RunInv.worker_step {clone prompt : String} {now : ℤ} (H : RunInv S w ms r)
    (hp : ms p = some (.worker r clone prompt now, m)) (W : WorkerStep S w w' r m m') :
    RunInv S w' (Function.update ms p (some (.worker r clone prompt now, m'))) r := by
  have hworker : WorksOn ms p r m := ⟨_, _, _, hp⟩
  have hl : r ∈ w'.launched := W.launched ▸ (H.worker hworker).1
  have honly : ∀ {q n}, WorksOn (Function.update ms p (some (.worker r clone prompt now, m'))) q r n →
      q = p ∧ n = m' := by
    intro q n hq
    rcases worksOn_update hq with ⟨rfl, rfl, -⟩ | ⟨hne, hq⟩
    · exact ⟨rfl, rfl⟩
    · exact (hne (H.unique hq hworker)).elim
  have hsettled : Delivered S w' r ∧ m'.phase.maySpawn = false →
      Settled S w' (Function.update ms p (some (.worker r clone prompt now, m'))) r := by
    rintro ⟨hdelivered, hphase⟩
    refine ⟨hl, hdelivered, fun q n hq => ?_⟩
    obtain ⟨-, rfl⟩ := honly hq
    exact hphase
  refine ⟨fun hrow => ⟨hl, W.facts.row hrow⟩, W.facts.recorded, fun _ => hl, fun hq hq' => ?_,
    fun hrow hc => hsettled (W.closed _ hrow hc), W.facts.kept, fun hq => ?_, fun {q n} hq => ?_⟩
  · exact (honly hq).1.trans (honly hq').1.symm
  · obtain ⟨-, rfl⟩ := honly hq
    exact ⟨hl, W.phase, W.restored⟩
  · rcases update_cases hq with ⟨-, hy⟩ | ⟨-, hq⟩
    · cases hy
    · -- a recovery that has taken the run knows that its worker is gone
      have R := H.recovery hq
      have htaken : r ∉ n.taken := fun h => (R.taken h).2 p m hworker
      refine ⟨fun _ => hl, fun h => (htaken h).elim, fun h => ?_, R.handoff,
        fun h => (htaken (R.handoff _ h rfl)).elim⟩
      exact hsettled (W.past ((R.seen h).past p m hworker) (R.seen h).kept)

/-- What a command of a recovery does to the world, for a run whose worker is gone. -/
structure RecoveryStep (S : SandboxWorker) (w w' : World) (r : ℕ) : Prop where
  others : ∀ r' ≠ r, SameRun S r' w w'
  launched : w'.launched = w.launched
  facts : Facts S w' r
  spawned : w'.spawned (sandboxName S.instanceId r) = w.spawned (sandboxName S.instanceId r)
  preserved : w.preserved (sandboxName S.instanceId r) = true →
    w'.preserved (sandboxName S.instanceId r) = true
  closed : ∀ row, w'.row r = some row → row.Closed → Delivered S w' r

theorem RunInv.recovery_step (H : RunInv S w ms r) (hp : ms p = some (.recovery, m))
    (habandoned : Abandoned w ms r) (W : RecoveryStep S w w' r)
    (hseen : r ∈ m'.seen → r ∈ m.seen)
    (hhandoff : ∀ h, m'.handoff = some h → h.name = sandboxName S.instanceId r → r ∈ m'.taken)
    (hrestored : m'.handoff = some (.restored (sandboxName S.instanceId r)) →
      w'.preserved (sandboxName S.instanceId r) = true) :
    RunInv S w' (Function.update ms p (some (.recovery, m'))) r := by
  have hl : r ∈ w'.launched := W.launched ▸ habandoned.1
  have hnone : ∀ q n, ¬ WorksOn (Function.update ms p (some (.recovery, m'))) q r n := by
    intro q n hq
    rcases worksOn_update hq with ⟨-, -, _, _, _, hrole⟩ | ⟨-, hq⟩
    · cases hrole
    · exact habandoned.2 q n hq
  have hdelivered : Delivered S w r → Delivered S w' r :=
    fun h hs => W.preserved (h (W.spawned ▸ hs))
  have hsettled : Delivered S w' r →
      Settled S w' (Function.update ms p (some (.recovery, m'))) r :=
    fun h => ⟨hl, h, fun q n hq => (hnone q n hq).elim⟩
  refine ⟨fun hrow => ⟨hl, W.facts.row hrow⟩, W.facts.recorded, fun _ => hl,
    fun hq _ => (hnone _ _ hq).elim, fun hrow hc => hsettled (W.closed _ hrow hc), W.facts.kept,
      fun hq => (hnone _ _ hq).elim,
    fun {q n} hq => ?_⟩
  rcases update_cases hq with ⟨-, hy⟩ | ⟨-, hq⟩
  · obtain rfl : n = m' := (Prod.mk.inj hy).2
    exact ⟨fun _ => hl, fun _ => ⟨hl, hnone⟩,
      fun h => hsettled (hdelivered ((H.recovery hp).seen (hseen h)).kept), hhandoff, hrestored⟩
  · have R := H.recovery hq
    exact ⟨fun _ => hl, fun _ => ⟨hl, hnone⟩, fun h => hsettled (hdelivered (R.seen h).kept),
      R.handoff, fun h => W.preserved (R.restored h)⟩

/-- A step of a process for the runs that it is not about. -/
theorem RunInv.other_step (H : RunInv S w ms r) (hp : ms p = some (role, m))
    (hw : SameRun S r w w') (hm : SameWatch S w ms r role m m') :
    RunInv S w' (Function.update ms p (some (role, m'))) r := by
  refine H.frame hw fun {q role' n} hq => ?_
  rcases update_cases hq with ⟨rfl, hy⟩ | ⟨-, hq⟩
  · cases hy
    exact .inr ⟨m, hp, hm⟩
  · exact .inr ⟨n, hq, .refl⟩

theorem Inv.update (H : Inv S w ms) 
    (hrun : ∀ r, RunInv S w' (Function.update ms p (some (role, m'))) r)
    (hhandoff : w'.handoff = Function.update w.handoff p m'.handoff)
    (howned : ∀ h, m'.handoff = some h → Owned S m' h role) :
    Inv S w' (Function.update ms p (some (role, m'))) := by
  refine ⟨hrun, fun {q role' n} hq => ?_, fun {q role' n h} hq hh => ?_⟩
  · rw [hhandoff]
    rcases update_cases hq with ⟨rfl, hy⟩ | ⟨hne, hq⟩
    · cases hy
      simp
    · simpa [hne] using H.handoff hq
  · rcases update_cases hq with ⟨-, hy⟩ | ⟨-, hq⟩
    · cases hy
      exact howned h hh
    · exact H.owned hq hh

theorem Inv.worker_step {clone prompt : String} {now : ℤ} (H : Inv S w ms)
    (hp : ms p = some (.worker r clone prompt now, m)) (W : WorkerStep S w w' r m m')
    (hhandoff : w'.handoff = Function.update w.handoff p m'.handoff)
    (hown : ∀ h, m'.handoff = some h → h.name = sandboxName S.instanceId r) :
    Inv S w' (Function.update ms p (some (.worker r clone prompt now, m'))) := by
  refine H.update (fun r' => ?_) hhandoff hown
  by_cases hr : r' = r
  · subst hr
    exact (H.run r').worker_step hp W
  · exact (H.run r').other_step hp (W.others r' hr) fun hr' => (hr hr'.symm).elim

theorem Inv.recovery_step (H : Inv S w ms) (hp : ms p = some (.recovery, m))
    (habandoned : Abandoned w ms r) (W : RecoveryStep S w w' r)
    (hwatch : ∀ r' ≠ r, SameWatch S w ms r' .recovery m m')
    (hseen : r ∈ m'.seen → r ∈ m.seen) (htaken : r ∈ m'.taken)
    (hhandoff : w'.handoff = Function.update w.handoff p m'.handoff)
    (hown : ∀ h, m'.handoff = some h → Owned S m' h .recovery)
    (hrestored : m'.handoff = some (.restored (sandboxName S.instanceId r)) →
      w'.preserved (sandboxName S.instanceId r) = true) :
    Inv S w' (Function.update ms p (some (.recovery, m'))) := by
  refine H.update (fun r' => ?_) hhandoff hown
  by_cases hr : r' = r
  · subst hr
    exact (H.run r').recovery_step hp habandoned W hseen (fun _ _ _ => htaken) hrestored
  · exact (H.run r').other_step hp (W.others r' hr) (hwatch r' hr)

end World
end FlashyFactory
