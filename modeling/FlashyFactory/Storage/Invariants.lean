import FlashyFactory.Storage.Refinement
import FlashyFactory.Storage.Rows

/-! # What holds of every ledger

The invariants of the queue, carried over to the ledgers that a run of calls can reach from the
empty one. -/

namespace FlashyFactory
open RetryQueue (State Event Runs Lockstep Sound Step)

namespace Ledger
variable {l : Ledger} {id : ℕ}

/-- A run whose calls meet `C` is a run of the queue whose events satisfy `D`, when `C` confines
the events of a call to `D`. -/
theorem runCalls_runs {C : Ledger → Call → Prop} {D : State Trigger → Event Trigger → Prop}
    (hCD : ∀ l c s e, C l c → l.Emits crates c s e → D s e) (H : Lockstep l.view)
    (h : l.Meets crates C calls) :
    Runs maxRecoveryAttempts D l.view (l.runCalls crates calls).view :=
  Transition.Meets.simulates (I := Lockstep) (fun _ _ hs ⟨_, _, hstep⟩ => hs.step hstep)
    (fun l c hl hc => (step_runs hl c).mono fun s e he => hCD l c s e hc he) h H

theorem sound_runCalls (H : Sound maxRecoveryAttempts l.view) (crates : Crates)
    (calls : List Call) : Sound maxRecoveryAttempts (l.runCalls crates calls).view :=
  H.run (runCalls_runs (C := fun _ _ => True) (D := fun _ _ => True) (fun _ _ _ _ _ _ => trivial)
    H.lockstep (Transition.Meets.of_forall (fun _ _ => trivial) _ _))

theorem sound_reachable (crates : Crates) (calls : List Call) :
    Sound maxRecoveryAttempts (Ledger.empty.runCalls crates calls).view :=
  sound_runCalls (Sound.initial _) crates calls

/-- What every call on a ledger in lockstep keeps holds of every ledger. -/
theorem reachable_invariant {P : Ledger → Prop} (crates : Crates) (hempty : P Ledger.empty)
    (hstep : ∀ l c, Lockstep l.view → P l → P (l.step crates c)) (calls : List Call) :
    P (Ledger.empty.runCalls crates calls) :=
  (Transition.run_invariant (P := fun l : Ledger => Lockstep l.view ∧ P l)
    (fun l c ⟨L, H⟩ => ⟨L.run (step_runs L c), hstep l c L H⟩)
    ⟨(sound_reachable crates []).lockstep, hempty⟩ calls).2

theorem judged_reachable (crates : Crates) (calls : List Call) :
    RetryQueue.Judged (Ledger.empty.runCalls crates calls).view :=
  (runCalls_runs (C := fun _ _ => True) (D := fun _ _ => True) (fun _ _ _ _ _ _ => trivial)
    (sound_reachable crates []).lockstep (.of_forall (fun _ _ => trivial) _ calls)).invariant
    RetryQueue.Judged.initial fun _ _ _ H _ hstep => H.step hstep

/-- A cancelled task has a cancelled run. -/
theorem cancelled_run (crates : Crates) (calls : List Call) {task : Task}
    (ht : task ∈ (Ledger.empty.runCalls crates calls).tasks) (hs : task.state = .cancelled) :
    ∃ run ∈ (Ledger.empty.runCalls crates calls).runs, run.taskId = task.id ∧ run.outcome = .cancelled := by
  obtain ⟨a, y, ha, hj, hv⟩ := judged_reachable crates calls task.id task.job .cancelled
    (view_job (KeyedTable.get?_of_mem ht)) (by simp [Task.job, hs])
  obtain ⟨run, hr, rfl⟩ := of_view_attempt ha
  refine ⟨run, KeyedTable.mem_of_get? hr, hj, ?_⟩
  simpa [Run.attempt] using hv

/-! ## Tasks and runs in lockstep -/

/-- A task is running exactly while one run of it is, and only a queued task has a run to
continue, which is a finished failed run of that task. -/
structure InLockstep (l : Ledger) : Prop where
  running : ∀ task ∈ l.tasks, task.state = .running ↔
    ∃! run, run ∈ l.runs ∧ run.taskId = task.id ∧ run.outcome = .running
  others : ∀ task ∈ l.tasks, task.state ≠ .running →
    ∀ run ∈ l.runs, run.taskId = task.id → run.outcome ≠ .running
  source : ∀ task ∈ l.tasks, ∀ p, task.recoverySourceRunId = some p → task.state = .queued ∧
    ∃ run ∈ l.runs, run.id = p ∧ run.taskId = task.id ∧ run.outcome = .failed ∧
      run.finishedAt.isSome

theorem inLockstep_of_view (H : Lockstep l.view)
    (hdated : ∀ id run, l.runs.get? id = some run → run.Dated) : InLockstep l := by
  have hattempt : ∀ run ∈ l.runs, l.view.attempt run.id = some run.attempt := fun run hr =>
    view_attempt (KeyedTable.get?_of_mem hr)
  have hjob : ∀ task ∈ l.tasks, l.view.job task.id = some task.job := fun task ht =>
    view_job (KeyedTable.get?_of_mem ht)
  have hof : ∀ task ∈ l.tasks, ∀ run ∈ l.runs, run.taskId = task.id → run.outcome = .running →
      task.state = .running := by
    intro task ht run hr hid ho
    obtain ⟨task', ht', hs⟩ := running_task H (KeyedTable.get?_of_mem hr) ho
    rw [hid, KeyedTable.get?_of_mem ht] at ht'
    cases ht'
    exact hs
  refine ⟨fun task ht => ⟨fun hs => ?_, fun hrun => ?_⟩, fun task ht hs run hr hid ho => ?_, ?_⟩
  · obtain ⟨a, y, ha, hyjob, hy⟩ := H.active_attempt (hjob task ht) (by simpa [Task.job] using hs)
    obtain ⟨run, hr, rfl⟩ := of_view_attempt ha
    refine ⟨run, ⟨KeyedTable.mem_of_get? hr, hyjob, by simpa [Run.attempt] using hy⟩, ?_⟩
    rintro run' ⟨hr', hid', ho'⟩
    have hsame : run'.id = a := H.running_unique (hattempt run' hr') ha
      (by simpa [Run.attempt] using ho') hy (hid'.trans hyjob.symm)
    exact KeyedTable.eq_of_key_eq hr' (KeyedTable.mem_of_get? hr)
      (hsame.trans (KeyedTable.key_of_get? hr).symm)
  · obtain ⟨run, ⟨hr, hid, ho⟩, _⟩ := hrun
    exact hof task ht run hr hid ho
  · exact hs (hof task ht run hr hid ho)
  · intro task ht p hp
    obtain ⟨hphase, y, hy, hyjob, hfailed⟩ := H.retry (hjob task ht) hp
    obtain ⟨run, hr, rfl⟩ := of_view_attempt hy
    have ho : run.outcome = .failed := by simpa [Run.attempt] using hfailed
    refine ⟨by simpa [Task.job] using hphase, run, KeyedTable.mem_of_get? hr,
      KeyedTable.key_of_get? hr, hyjob, ho, hdated p run hr ?_⟩
    simp [ho]

/-- In lockstep, a run that can be closed has a running task. -/
theorem finishRunAndTask_ne_taskNotRunning (H : Lockstep l.view) :
    l.finishRunAndTaskWithRecovery crates host id outcome result error sessionId allow ≠
      .error (.taskNotRunning taskId) := by
  intro h
  simp only [finishRunAndTaskWithRecovery] at h
  split at h
  · cases h
  · split at h
    · cases h
    · next run hrun =>
      obtain ⟨hr, hp⟩ := Option.filter_eq_some_iff.mp hrun
      obtain ⟨task, ht, hs⟩ := running_task H hr (by simpa [isRunning] using hp)
      have hhits : l.tasks.hits run.taskId taskIsRunning = true :=
        KeyedTable.hits_iff.mpr ⟨task, ht, by simpa [taskIsRunning] using hs⟩
      split at h
      · cases h
      · split at h
        · next hmiss => simp [hhits] at hmiss
        · split at h <;> cases h

theorem failPrelaunch_ne_changed (H : Lockstep l.view) :
    l.failPrelaunchAndRequeue crates host id error ≠ .error (.runChangedDuringPrelaunch runId) ∧
      l.failPrelaunchAndRequeue crates host id error ≠ .error (.taskChangedDuringPrelaunch taskId) := by
  rw [failPrelaunchAndRequeue]
  split
  · constructor <;> (intro h; cases h)
  · next run hrun =>
    obtain ⟨hr, hp⟩ := Option.filter_eq_some_iff.mp hrun
    have hp := (Bool.and_eq_true_iff.mp hp).1
    obtain ⟨task, ht, hs⟩ := running_task H hr (by simpa [isRunning] using hp)
    have hrunHits : l.runs.hits id isRunning = true := KeyedTable.hits_iff.mpr ⟨run, hr, hp⟩
    have htaskHits : l.tasks.hits run.taskId taskIsRunning = true :=
      KeyedTable.hits_iff.mpr ⟨task, ht, by simpa [taskIsRunning] using hs⟩
    simp only [hrunHits, htaskHits, Bool.not_true, Bool.false_eq_true, if_false]
    split
    all_goals constructor <;> (intro h; cases h)

/-- **Tasks and runs stay in lockstep**, whatever calls are made in whatever order; so a run that
is still running can always be closed together with its task. -/
theorem lockstep_reachable (crates : Crates) (calls : List Call) :
    (Ledger.empty.runCalls crates calls).InLockstep ∧
    (∀ host id outcome result error sessionId allow taskId,
      (Ledger.empty.runCalls crates calls).finishRunAndTaskWithRecovery crates host id outcome result
        error sessionId allow ≠ .error (.taskNotRunning taskId)) ∧
    ∀ host id error runId taskId,
      (Ledger.empty.runCalls crates calls).failPrelaunchAndRequeue crates host id error ≠
          .error (.runChangedDuringPrelaunch runId) ∧
        (Ledger.empty.runCalls crates calls).failPrelaunchAndRequeue crates host id error ≠
          .error (.taskChangedDuringPrelaunch taskId) := by
  have H := (sound_reachable crates calls).lockstep
  exact ⟨inLockstep_of_view H fun _ _ hr => dated_reachable crates calls hr,
    fun _ _ _ _ _ _ _ _ => finishRunAndTask_ne_taskNotRunning H,
    fun _ _ _ _ _ => failPrelaunch_ne_changed H⟩

end Ledger
end FlashyFactory
