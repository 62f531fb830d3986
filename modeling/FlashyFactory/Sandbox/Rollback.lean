import FlashyFactory.Sandbox.Effects
import Mathlib

/-! # The order in which snapshots reach a host clone

The clone of a task is reset to the snapshot of one run after another. A sandbox can outlive its
run, and `reconcile_sandbox_workers` hands over every sandbox that exists: the order of the
snapshots is that of the runs only as long as no sandbox of an earlier run is left. -/

namespace FlashyFactory
open Process

namespace Ledger

def taskOf (l : Ledger) (runId : ℕ) : Option ℕ := (l.runs.get? runId).map Run.taskId

/-- The run has a row in `run_sandboxes`. -/
def HasSandbox (l : Ledger) (runId : ℕ) : Prop := (l.runSandboxes.get? runId).isSome = true

instance : Decidable (HasSandbox l r) := inferInstanceAs (Decidable (_ = true))

theorem taskOf_of_mem {l : Ledger} (h : run ∈ l.runs) : l.taskOf run.id = some run.taskId := by
  simp [taskOf, KeyedTable.get?_of_mem h]

theorem taskOf_step (crates : Crates) (c : Call) {l : Ledger} (h : l.taskOf r = some t) :
    (l.step crates c).taskOf r = some t := by
  obtain ⟨run, hr, rfl⟩ := Option.map_eq_some_iff.mp h
  obtain ⟨run', hr', he⟩ := (step_changes crates l c).runs.kept hr
  simp [taskOf, hr', he.task]

theorem hasSandbox_step (crates : Crates) (c : Call) {l : Ledger} (h : l.HasSandbox r) :
    (l.step crates c).HasSandbox r := by
  obtain ⟨host, op⟩ := c
  rcases row_step crates l host op r with hsame | ⟨_, -, -, -, hnew⟩ | ⟨_, _, _, _, _, _, _, -, -, hnew⟩
  · simpa [HasSandbox, hsame] using h
  · simp [HasSandbox, hnew]
  · simp [HasSandbox, hnew]

end Ledger

namespace World

/-- Of two snapshots that a clone was reset to, of runs of one task, the newer one is not of an
earlier run. -/
def Follows (S : SandboxWorker) (l : Ledger) (newer older : String) : Prop :=
  ∀ r r' t, newer = sandboxName S.instanceId r → older = sandboxName S.instanceId r' →
    l.taskOf r = some t → l.taskOf r' = some t → r' ≤ r

/-- No host clone was ever reset to the snapshot of a run after that of a later one. -/
def NeverRolledBack (S : SandboxWorker) (w : World) : Prop :=
  ∀ clone, (w.resets clone).Pairwise (Follows S w.ledger)

/-- A snapshot is fetched only from the newest sandbox on record of its task. -/
def FetchesNewest (S : SandboxWorker) (w : World) (_ : ℕ → Option Role) (_ : ℕ) : Cmd → Prop
  | .fetch _ name => ∃ run ∈ w.ledger.runs, name = sandboxName S.instanceId run.id ∧
    w.ledger.HasSandbox run.id ∧
    ∀ run' ∈ w.ledger.runs, run'.taskId = run.taskId → w.ledger.HasSandbox run'.id →
      run'.id ≤ run.id
  | _ => True

/-- The sandbox whose snapshot is fetched. -/
def fetched? : Cmd → Option String
  | .fetch _ name => some name
  | _ => none

theorem fetchesNewest_iff : (∀ name ∈ fetched? c, ∃ run ∈ w.ledger.runs,
    name = sandboxName S.instanceId run.id ∧
    w.ledger.HasSandbox run.id ∧ ∀ run' ∈ w.ledger.runs, run'.taskId = run.taskId →
      w.ledger.HasSandbox run'.id →
      run'.id ≤ run.id) ↔ FetchesNewest S w roles p c := by
  cases c <;> simp [fetched?, FetchesNewest]

instance : Decidable (FetchesNewest S w roles p c) := decidable_of_iff _ fetchesNewest_iff

/-- The sandbox belongs to a run that has it on record. -/
def Known (S : SandboxWorker) (l : Ledger) (name : String) : Prop :=
  ∃ r t, name = sandboxName S.instanceId r ∧ l.taskOf r = some t ∧ l.HasSandbox r

/-- What holds of the host clones as long as only newest sandboxes are handed over. -/
structure Forward (S : SandboxWorker) (l : Ledger) (fetchHead : String → Option String)
    (resets : String → List String) : Prop where
  known : ∀ {clone name}, name ∈ resets clone → Known S l name
  headKnown : ∀ {clone name}, fetchHead clone = some name → Known S l name
  head : ∀ {clone name}, fetchHead clone = some name →
    ∀ older ∈ resets clone, Follows S l name older
  pairwise : ∀ clone, (resets clone).Pairwise (Follows S l)

variable {S : SandboxWorker} {l l' : Ledger} {fetchHead : String → Option String}
  {resets : String → List String}

theorem Follows.refl : Follows S l name name := by
  rintro r r' t hr hr' - -
  exact (sandboxName_inj.mp (hr.symm.trans hr')).ge

/-- The task of a run never changes. -/
theorem Follows.mono (h : Follows S l newer older) (hn : Known S l newer) (ho : Known S l older)
    (hl : ∀ {r t}, l.taskOf r = some t → l'.taskOf r = some t) : Follows S l' newer older := by
  obtain ⟨n, tn, rfl, htn, -⟩ := hn
  obtain ⟨m, tm, rfl, htm, -⟩ := ho
  intro r r' t hr hr' ht ht'
  obtain rfl := sandboxName_inj.mp hr
  obtain rfl := sandboxName_inj.mp hr'
  have htn' : tn = t := Option.some.inj ((hl htn).symm.trans ht)
  have htm' : tm = t := Option.some.inj ((hl htm).symm.trans ht')
  exact h _ _ t rfl rfl (htn' ▸ htn) (htm' ▸ htm)

theorem Known.mono (h : Known S l name) (hl : ∀ {r t}, l.taskOf r = some t → l'.taskOf r = some t)
    (hs : ∀ {r}, l.HasSandbox r → l'.HasSandbox r) : Known S l' name := by
  obtain ⟨r, t, rfl, ht, hr⟩ := h
  exact ⟨r, t, rfl, hl ht, hs hr⟩

namespace Forward

theorem initial : Forward S .empty (fun _ => none) (fun _ => []) where
  known := nofun
  headKnown := nofun
  head := nofun
  pairwise _ := .nil

theorem step (H : Forward S l fetchHead resets) (crates : Crates) (c : Call) :
    Forward S (l.step crates c) fetchHead resets where
  known h := (H.known h).mono (Ledger.taskOf_step crates c) (Ledger.hasSandbox_step crates c)
  headKnown h := (H.headKnown h).mono (Ledger.taskOf_step crates c) (Ledger.hasSandbox_step crates c)
  head h older ho :=
    (H.head h older ho).mono (H.headKnown h) (H.known ho) (Ledger.taskOf_step crates c)
  pairwise clone := (H.pairwise clone).imp_of_mem fun ha hb h =>
    h.mono (H.known ha) (H.known hb) (Ledger.taskOf_step crates c)

/-- Another fetch leaves no snapshot to reset to. -/
theorem forget (H : Forward S l fetchHead resets) (clone : String) :
    Forward S l (Function.update fetchHead clone none) resets where
  known := H.known
  headKnown := fun {path name} h => by
    by_cases hp : path = clone
    · simp [hp] at h
    · exact H.headKnown (by simpa [hp] using h)
  head := fun {path name} h => by
    by_cases hp : path = clone
    · simp [hp] at h
    · exact H.head (by simpa [hp] using h)
  pairwise := H.pairwise

/-- The snapshot of the newest sandbox of its task is fetched. -/
theorem fetch (H : Forward S l fetchHead resets) {run : Run} (clone : String)
    (hrun : run ∈ l.runs) (hr : l.HasSandbox run.id)
    (hnewest : ∀ run' ∈ l.runs, run'.taskId = run.taskId → l.HasSandbox run'.id →
      run'.id ≤ run.id) :
    Forward S l (Function.update fetchHead clone (some (sandboxName S.instanceId run.id)))
      resets where
  known := H.known
  headKnown := fun {path name} h => by
    by_cases hp : path = clone
    · obtain rfl : sandboxName S.instanceId run.id = name := by simpa [hp] using h
      exact ⟨run.id, run.taskId, rfl, Ledger.taskOf_of_mem hrun, hr⟩
    · exact H.headKnown (by simpa [hp] using h)
  head := fun {path name} h => by
    by_cases hp : path = clone
    · obtain rfl : sandboxName S.instanceId run.id = name := by simpa [hp] using h
      intro older ho n m t hn hm hnt hmt
      obtain rfl := sandboxName_inj.mp hn
      obtain ⟨m', _, hm', -, hrec⟩ := H.known ho
      obtain rfl := sandboxName_inj.mp (hm'.symm.trans hm)
      obtain ⟨run', hrun', rfl⟩ := Option.map_eq_some_iff.mp hmt
      obtain ⟨hmem, rfl⟩ := KeyedTable.get?_eq_some.mp hrun'
      have ht : run.taskId = run'.taskId :=
        Option.some.inj ((Ledger.taskOf_of_mem hrun).symm.trans hnt)
      exact hnewest run' hmem ht.symm hrec
    · exact H.head (by simpa [hp] using h)
  pairwise := H.pairwise

/-- The clone is reset to the snapshot that was fetched last. -/
theorem reset (H : Forward S l fetchHead resets) (hfetch : fetchHead clone = some name) :
    Forward S l fetchHead (Function.update resets clone (name :: resets clone)) := by
  have hmem : ∀ {path older}, older ∈ Function.update resets clone (name :: resets clone) path →
      older = name ∧ path = clone ∨ older ∈ resets path := by
    intro path older h
    by_cases hp : path = clone
    · subst hp
      simp only [Function.update_self, List.mem_cons] at h
      exact h.imp_left fun ho => ⟨ho, rfl⟩
    · exact .inr (by simpa [hp] using h)
  refine ⟨fun h => ?_, H.headKnown, fun {path newer} h older ho => ?_, fun path => ?_⟩
  · rcases hmem h with ⟨rfl, rfl⟩ | h
    · exact H.headKnown hfetch
    · exact H.known h
  · rcases hmem ho with ⟨rfl, rfl⟩ | ho
    · rw [hfetch] at h
      cases h
      exact .refl
    · exact H.head h older ho
  · by_cases hp : path = clone
    · subst hp
      simpa using ⟨H.head hfetch, H.pairwise path⟩
    · simpa [hp] using H.pairwise path

end Forward

/-- `Forward` for a world. -/
def MovesForward (S : SandboxWorker) (w : World) : Prop :=
  Forward S w.ledger w.fetchHead w.resets

theorem movesForward_settle {w after : World} {v : α} (hw : w.MovesForward S)
    (hafter : refusal = none → after.MovesForward S) :
    (w.settle o refusal v after).2.MovesForward S := by
  rcases settle_or w o refusal after v with h | ⟨h, href⟩
  · rwa [h]
  · rw [h]
    exact hafter href

theorem movesForward_exec {w : World} (crates : Crates) (roles : ℕ → Option Role) (p : ℕ) (c : Cmd)
    (o : Choice) (hw : w.MovesForward S) (hc : FetchesNewest S w roles p c) :
    (w.exec crates p c o).2.MovesForward S := by
  cases c with
  | fetch clone name =>
    obtain ⟨run, hrun, rfl, hr, hnewest⟩ := hc
    exact movesForward_settle hw fun _ => Forward.fetch hw clone hrun hr hnewest
  | reset clone =>
    refine movesForward_settle hw fun _ => ?_
    simp only [resetClone]
    split
    · exact hw
    · next hfetch => exact Forward.reset hw hfetch
  | write op => exact movesForward_settle hw fun _ => Forward.step hw crates _
  | observation => exact hw
  | _ => exact movesForward_settle hw fun _ => hw

/-- **Host clones move forward**, as long as every snapshot is fetched from the newest sandbox on
record of its task. -/
theorem host_clones_move_forward (S : Setup) (es : List (Event ℕ Role Choice Outside))
    (hes : Transition.Meets S.machine.step (Machine.Issues (FetchesNewest S.worker))
      Daemons.initial es) :
    (Transition.run S.machine.step Daemons.initial es).world.NeverRolledBack S.worker := by
  refine Forward.pairwise (Machine.world_invariant (P := MovesForward S.worker) ?_ ?_ ?_ hes
    Forward.initial)
  · exact fun w roles p c choice hw hc => movesForward_exec S.crates roles p c choice hw hc
  · intro w p role hw
    cases role <;> exact hw
  · intro w e hw
    cases e with
    | call c =>
      simp only [Setup.machine, outside]
      split
      · exact hw
      · exact Forward.step hw S.crates c
    | agentEnds name => exact hw
    | fetch clone => exact Forward.forget hw clone

/-! ### Two daemons and one ticket -/

/-- A worker runs to its end. -/
def oneRun (runId : ℕ) : List (Event ℕ Role Choice Outside) :=
  outsideCalls exampleHost [exampleClaim] ++ .start runId (exampleWorker runId) :: acts runId 25

/-- The host on which the first daemon has died. -/
def survivorHost : Host := { exampleHost with kill := fun _ => false }

/-- A daemon dies while its agent works. -/
def interrupted : List (Event ℕ Role Choice Outside) :=
  outsideCalls exampleHost [exampleDaemon, examplePoll "r1" true, exampleClaim,
    .reserveTaskWorkspace cloneWorkspace] ++
  .start 1 (exampleWorker 1) :: acts 1 9 ++ [.crash 1]

/-- It is started again, then the orphaned run is recovered and the task is finished. -/
def recoveredInOrder : List (Event ℕ Role Choice Outside) :=
  interrupted ++ .start 3 .recovery :: acts 3 17 ++
  outsideCalls survivorHost [.recoverOrphanedRuns] ++ oneRun 2

set_option maxRecDepth 4000 in
theorem moves_forward_recoveredInOrder :
    (Transition.run exampleSetup.machine.step Daemons.initial
      recoveredInOrder).world.NeverRolledBack exampleSetup.worker :=
  host_clones_move_forward exampleSetup recoveredInOrder (by decide)

/-- Another daemon recovers the orphaned run and finishes the task, then the first one is started
again. -/
def recoveredTwice : List (Event ℕ Role Choice Outside) :=
  interrupted ++ outsideCalls survivorHost [.recoverOrphanedRuns] ++ oneRun 2 ++
  .start 3 .recovery :: acts 3 13

set_option maxRecDepth 4000 in
theorem rolled_back_by_recovery : ¬ ∀ (S : Setup) (es : List (Event ℕ Role Choice Outside)),
    (Transition.run S.machine.step Daemons.initial es).world.NeverRolledBack S.worker := by
  intro h
  have hpair := h exampleSetup recoveredTwice cloneWorkspace.path
  have hresets : (Transition.run exampleSetup.machine.step Daemons.initial
      recoveredTwice).world.resets cloneWorkspace.path =
      [sandboxName "c0ffee" 1, sandboxName "c0ffee" 2] := by decide
  rw [hresets] at hpair
  have hle : 2 ≤ 1 := (List.pairwise_cons.mp hpair).1 _ (List.mem_singleton_self _) 1 2 1 rfl rfl
    (by decide) (by decide)
  omega

end World
end FlashyFactory
