import FlashyFactory.Storage.Calls
import FlashyFactory.Lib.RetryQueue

/-! # The ledger is a work queue with bounded retries

`Ledger.view` reads a ledger as a queue: its tasks are the jobs, its runs the attempts, its
continuations the resumptions. `Ledger.step_runs` shows that every call takes the view through
steps of the queue, and `Call.Emits` says which ones; the properties of the queue are then
properties of the ledger. -/

namespace FlashyFactory
open RetryQueue (Phase Verdict Job Attempt State Event Runs Lockstep)

/-- `(repository, workflow, source_item)`. -/
abbrev Trigger := String × String × String

def TaskState.phase : TaskState → Phase
  | queued => .waiting
  | running => .active
  | succeeded => .done .succeeded
  | failed => .done .failed
  | cancelled => .done .cancelled

def RunOutcome.verdict : RunOutcome → Option Verdict
  | running => none
  | succeeded => some .succeeded
  | failed => some .failed
  | cancelled => some .cancelled

/-- The trigger of a ticket task; scheduled tasks have none. -/
def Task.trigger (task : Task) : Option Trigger :=
  if task.kind = .ticket then task.sourceItem.map fun item => (task.repository, task.workflow, item)
  else none

def Task.job (task : Task) : Job Trigger := ⟨task.trigger, task.state.phase, task.recoverySourceRunId⟩

def Run.attempt (run : Run) : Attempt :=
  ⟨run.taskId, run.outcome.verdict, run.cancellationRequestedAt.isSome, run.recoveryOf,
    run.recoveryAttempt⟩

@[simp] theorem TaskState.phase_eq_waiting : phase s = .waiting ↔ s = .queued := by cases s <;> simp [phase]

@[simp] theorem TaskState.phase_eq_active : phase s = .active ↔ s = .running := by cases s <;> simp [phase]

@[simp] theorem TaskState.phase_eq_succeeded : phase s = .done .succeeded ↔ s = .succeeded := by
  cases s <;> simp [phase]

@[simp] theorem TaskState.phase_eq_cancelled : phase s = .done .cancelled ↔ s = .cancelled := by
  cases s <;> simp [phase]

@[simp] theorem RunOutcome.verdict_eq_none : verdict o = none ↔ o = .running := by cases o <;> simp [verdict]

@[simp] theorem RunOutcome.verdict_eq_failed : verdict o = some .failed ↔ o = .failed := by
  cases o <;> simp [verdict]

@[simp] theorem RunOutcome.verdict_eq_cancelled : verdict o = some .cancelled ↔ o = .cancelled := by
  cases o <;> simp [verdict]

namespace Ledger

def view (l : Ledger) : State Trigger where
  job j := (l.tasks.get? j).map Task.job
  attempt a := (l.runs.get? a).map Run.attempt
  started j := l.runs.rows.countP fun run => run.taskId = j
  resumed j := l.continuations.rows.countP fun c => c.taskId = j

variable {l : Ledger} {id : ℕ}

theorem view_job (h : l.tasks.get? j = some task) : l.view.job j = some task.job := by
  simp [view, h]

theorem view_attempt (h : l.runs.get? a = some run) :
    l.view.attempt a = some run.attempt := by
  simp [view, h]

theorem of_view_job (h : l.view.job j = some x) :
    ∃ task, l.tasks.get? j = some task ∧ x = task.job := by
  simpa [view, eq_comm] using h

theorem of_view_attempt (h : l.view.attempt a = some y) :
    ∃ run, l.runs.get? a = some run ∧ y = run.attempt := by
  simpa [view, eq_comm] using h

/-- The task of a running run is running. -/
theorem running_task (H : Lockstep l.view) (hr : l.runs.get? id = some run)
    (ho : run.outcome = .running) :
    ∃ task, l.tasks.get? run.taskId = some task ∧ task.state = .running := by
  obtain ⟨x, hx, hp⟩ := H.running_job (view_attempt hr) (by simpa [Run.attempt] using ho)
  obtain ⟨task, ht, rfl⟩ := of_view_job hx
  exact ⟨task, ht, by simpa [Task.job] using hp⟩

/-! ## What the statements do to the view -/

/-- An update of runs that leaves what the queue sees of them. -/
theorem view_modifyRuns {hf : ∀ run, (f run).id = run.id}
    (h : ∀ run, (f run).attempt = run.attempt) :
    ({ l with runs := l.runs.modify id p f hf } : Ledger).view = l.view := by
  have hid : ∀ run, (f run).taskId = run.taskId := fun run => congrArg Attempt.job (h run)
  simp only [view, KeyedTable.map_get?_modify_of_eq Run.attempt h]
  congr 1
  funext j
  exact KeyedTable.countP_modify fun run => by simp [hid]

/-- The statements that close the run `id` and move its task. -/
theorem view_close {hf : ∀ run, (f run).id = run.id} {hg : ∀ task, (g task).id = task.id}
    (hr : l.runs.get? id = some run) (ho : run.outcome = .running)
    (ht : l.tasks.get? run.taskId = some task) (hs : task.state = .running)
    (hid : ∀ run, (f run).taskId = run.taskId) :
    (({ l with runs := l.runs.modify id isRunning f hf } : Ledger).updateRunningTask run.taskId g
        hg).view =
      { l.view with
        job := Function.update l.view.job run.taskId (some (g task).job)
        attempt := Function.update l.view.attempt id (some (f run).attempt) } := by
  have hp : isRunning run = true := by simp [isRunning, ho]
  have hq : taskIsRunning task = true := by simp [taskIsRunning, hs]
  simp only [updateRunningTask, view, KeyedTable.map_get?_modify _ hr hp,
    KeyedTable.map_get?_modify _ ht hq]
  congr 1
  funext j
  exact KeyedTable.countP_modify fun run => by simp [hid]

/-- The request to cancel the run `id`. -/
theorem view_cancel (hr : l.runs.get? id = some run) (hp : isCancellable run = true) :
    ({ l with
        runs := l.runs.modify id isCancellable fun run =>
          { run with cancellationRequestedAt := some now } } : Ledger).view =
      { l.view with
        attempt := Function.update l.view.attempt id (some { run.attempt with cancelling := true }) } := by
  simp only [view, KeyedTable.map_get?_modify _ hr hp]
  congr 1
  funext j
  exact KeyedTable.countP_modify fun run => rfl

/-- The insertion of a task. -/
theorem view_insertTask {h : ∀ n, (new n).id = n} :
    ({ l with tasks := l.tasks.insertNext new h } : Ledger).view =
      { l.view with
        job := Function.update l.view.job l.tasks.nextId (some (new l.tasks.nextId).job) } := by
  simp only [view, KeyedTable.map_get?_insertNext]

/-- The statements that claim the task `id` for a new run of it. -/
theorem view_claim {task : Task} {p : Task → Bool} {f g : Task → Task} {new : ℕ → Run}
    {hf : ∀ task, (f task).id = task.id} {hg : ∀ task, (g task).id = task.id}
    {hnew : ∀ n, (new n).id = n} (ht : l.tasks.get? id = some task) (hp : p task = true)
    (hid : (new l.runs.nextId).taskId = id) :
    ({ l with
        tasks := (l.tasks.modify id p f hf).modify id (fun _ => true) g hg
        runs := l.runs.insertNext new hnew } : Ledger).view =
      { l.view with
        job := Function.update l.view.job id (some (g (f task)).job)
        attempt := Function.update l.view.attempt l.runs.nextId (some (new l.runs.nextId).attempt)
        started := Function.update l.view.started id (l.view.started id + 1) } := by
  have hjob : (fun i => (((l.tasks.modify id p f hf).modify id (fun _ => true) g hg).get? i).map
      Task.job) = Function.update l.view.job id (some (g (f task)).job) := by
    rw [KeyedTable.map_get?_modify _ (KeyedTable.get?_modify_self ht hp) (by rfl),
      KeyedTable.map_get?_modify _ ht hp, Function.update_idem]
    rfl
  have hstarted := KeyedTable.countP_insert_class (t := l.runs) (r := new l.runs.nextId)
    (h := fun _ hs hk => (KeyedTable.lt_nextId hs).ne (hk.trans (hnew _))) Run.taskId
  rw [hid] at hstarted
  simp only [view] at hjob ⊢
  rw [hjob, KeyedTable.map_get?_insertNext, KeyedTable.insertNext, hstarted]

/-- The statements that resume the task `id`. -/
theorem view_resume {task : Task} {p : Task → Bool} {f : Task → Task}
    {hf : ∀ task, (f task).id = task.id} {c : Continuation}
    {hc : ∀ d ∈ l.continuations, d.key ≠ c.key} (ht : l.tasks.get? id = some task)
    (hp : p task = true) (hid : c.taskId = id) :
    ({ l with
        tasks := l.tasks.modify id p f hf
        continuations := l.continuations.insert c hc } : Ledger).view =
      { l.view with
        job := Function.update l.view.job id (some (f task).job)
        resumed := Function.update l.view.resumed id (l.view.resumed id + 1) } := by
  have hresumed := KeyedTable.countP_insert_class (h := hc) Continuation.taskId
  rw [hid] at hresumed
  simp only [view]
  rw [hresumed, KeyedTable.map_get?_modify _ ht hp]

end Ledger
end FlashyFactory
