import FlashyFactory.Daemon.Custody

/-! # Which failed agents are retried

`finish_run_and_task` puts a failed run back on the queue when it has a process id on record. The
worker of a run on the host writes one before it starts the agent; the worker of a run in a
sandbox never does, so an agent that fails there fails its task at once. -/

namespace FlashyFactory
open Process

namespace Ledger
variable {l l' : Ledger} {r : ℕ}

/-- The task of the run waits in the queue to continue it. -/
def Retried (l : Ledger) (r : ℕ) : Prop :=
  ∃ run task, l.runs.get? r = some run ∧ l.tasks.get? run.taskId = some task ∧
    task.state = .queued ∧ task.recoverySourceRunId = some r

instance : Decidable (l.Retried r) :=
  decidable_of_iff ((l.runs.get? r).any fun run => (l.tasks.get? run.taskId).any fun task =>
    task.state = .queued && task.recoverySourceRunId = some r)
    (by simp [Retried, Option.any_eq_true])

theorem taskStateFor_ne_queued : taskStateFor outcome ≠ .queued := by
  cases outcome <;> exact nofun

/-- The statements that close a run put its task back on the queue, or end it. -/
theorem retried_close {run : Run} {task : Task} {f : Run → Run} {g : Task → Task}
    (hf : ∀ run, (f run).id = run.id) (hg : ∀ task, (g task).id = task.id)
    (hr : l.runs.get? r = some run) (ho : isRunning run = true) (htask : (f run).taskId = run.taskId)
    (ht : l.tasks.get? run.taskId = some task) (hs : taskIsRunning task = true) :
    (({ l with runs := l.runs.modify r isRunning f hf } : Ledger).updateRunningTask run.taskId g hg).Retried r ↔
      (g task).state = .queued ∧ (g task).recoverySourceRunId = some r := by
  have hrun' : (l.runs.modify r isRunning f hf).get? r = some (f run) := KeyedTable.get?_modify_self hr ho
  have htask' : (l.tasks.modify run.taskId taskIsRunning g hg).get? run.taskId = some (g task) :=
    KeyedTable.get?_modify_self ht hs
  constructor
  · rintro ⟨run', task', hr', ht', h⟩
    cases hrun'.symm.trans hr'
    rw [htask] at ht'
    cases htask'.symm.trans ht'
    exact h
  · exact fun h => ⟨_, _, hrun', htask ▸ htask', h⟩

theorem retried_finish {run : Run} (hr : l.runs.get? r = some run)
    (h : l.finishRunAndTaskWithRecovery crates host r outcome result error sessionId allow = .ok (a, l')) :
    l'.Retried r ↔ retryRecovery allow (closeOutcome run outcome) run = true := by
  simp only [finishRunAndTaskWithRecovery] at h
  split at h
  · cases h
  split at h
  · cases h
  next row hrow =>
  obtain ⟨hget, hrunning⟩ := Option.filter_eq_some_iff.mp hrow
  cases hget.symm.trans hr
  split at h
  · cases h
  split at h
  · cases h
  next htask =>
  obtain ⟨task, ht, hstate⟩ := KeyedTable.hits_iff.mp (by simpa using htask)
  cases hretry : retryRecovery allow (closeOutcome run outcome) run with
  | true =>
    simp only [hretry, if_true] at h
    split at h <;> cases h
    exact (retried_close _ _ hr hrunning rfl ht hstate).trans ⟨fun _ => rfl, fun _ => ⟨rfl, rfl⟩⟩
  | false =>
    simp only [hretry, Bool.false_eq_true, if_false] at h
    split at h <;> cases h
    refine (retried_close _ _ hr hrunning rfl ht hstate).trans ⟨fun h => ?_, fun h => by cases h⟩
    exact (taskStateFor_ne_queued h.1).elim

end Ledger

/-- The worker that the daemon spawns for the first run. -/
def exampleJob (backend : Backend) : Launch where
  runId := 1
  ownerId := "daemon-1"
  token := 0
  trigger := .label
  providerName := "GitLab"
  backend := backend
  now := 0

/-- Nothing fails, and the agent exits with status 1. -/
def failingSignal : Signal := { host := exampleHost, woken := .exited (.code 1) }

namespace Engine
variable {E : Engine} {job : Launch} {m : Progress}

/-- Unless its observation was reset, a failed agent on the host has its process id on record. -/
theorem Working.undisturbed (H : Working E job m) (F : m.Fits job) {run : Run}
    (hr : E.ledger.runs.get? job.runId = some run) (hagent : m.agent.Failed) (hjob : job.backend.onHost = true)
    (hreset : m.agent.reset = false) : run.processId.isSome = true ∧ m.agent.givenUp = false := by
  obtain ⟨hspawned, status, hexit, -⟩ := hagent
  obtain ⟨run', hr', hanchored⟩ := H.run
  cases hr'.symm.trans hr
  refine ⟨hanchored.trans (F.observed ⟨hspawned, hreset⟩ hjob), Bool.eq_false_iff.mpr fun hgiven => ?_⟩
  rcases F.vacant hgiven with hnone | hreset'
  · cases hnone.symm.trans hexit
  · cases hreset.symm.trans hreset'

/-- The write by which a worker closes its run, once its agent has failed. -/
theorem closing_write_retries (H : Working E job m) (F : m.Fits job) {op : Op} {host : Host} {run : Run}
    (hok : m.okWrite job op) (hcloses : op.closes job.runId = true)
    (hfailure : E.ledger.failure? crates ⟨host, op⟩ = none) (hr : E.ledger.runs.get? job.runId = some run)
    (hattempt : run.recoveryAttempt < maxRecoveryAttempts) (hrequested : run.cancellationRequestedAt = none)
    (hagent : m.agent.Failed) :
    (E.ledger.step crates ⟨host, op⟩).Retried job.runId ↔
      job.backend.onHost = true ∧ run.processId.isSome = true ∧ m.agent.givenUp = false := by
  have hprocess : run.processId.isSome = true → job.backend.onHost = true := by
    obtain ⟨run', hr', hanchored⟩ := H.run
    cases hr'.symm.trans hr
    exact fun hsome => F.onHost (hanchored.symm.trans hsome)
  cases op with
  | finishRunAndTask id outcome result error sessionId =>
    obtain ⟨rfl, -, -, hgiven⟩ := hok
    obtain ⟨a, hfinish⟩ := LedgerResult.of_error?_none (l := E.ledger) hfailure
    have hretried : (E.ledger.step crates ⟨host, .finishRunAndTask job.runId outcome result error
        sessionId⟩).Retried job.runId ↔ outcome = .failed ∧ run.processId.isSome = true := by
      refine (Ledger.retried_finish hr hfinish).trans ?_
      simp [Ledger.retryRecovery, Ledger.closeOutcome, hrequested, hattempt]
    rw [hretried]
    constructor
    · rintro ⟨houtcome, hsome⟩
      exact ⟨hprocess hsome, hsome, (hgiven (hprocess hsome) hagent).mp houtcome⟩
    · rintro ⟨hjob, hsome, hnot⟩
      exact ⟨(hgiven hjob hagent).mpr hnot, hsome⟩
  | finishRunAndTaskTerminal id outcome result error sessionId =>
    obtain ⟨rfl, -, -, hgiven⟩ := hok
    obtain ⟨a, hfinish⟩ := LedgerResult.of_error?_none (l := E.ledger) hfailure
    have hretried : ¬ (E.ledger.step crates ⟨host, .finishRunAndTaskTerminal job.runId outcome result error
        sessionId⟩).Retried job.runId := by
      refine (Ledger.retried_finish hr hfinish).not.mpr ?_
      simp [Ledger.retryRecovery]
    refine iff_of_false hretried ?_
    rintro ⟨hjob, -, hnot⟩
    cases hnot.symm.trans (hgiven hjob hagent)
  | failPrelaunchAndRequeue id error =>
    obtain ⟨-, hnone, -⟩ := hok
    rw [hnone] at hagent
    cases hagent.1
  | _ => cases hcloses

/-- **Only an agent on the host is retried.** When the worker of a run closes it after its agent has
ended by itself with a failure, the run is put back on the queue if and only if the agent was
executed on the host, its process id is still on record and the start of another one was not given up.
On the host this is so unless the observation of the agent was reset. -/
theorem failed_agent_retried_iff (crates : Crates) (es : List Floor.Event) (p : ℕ) (o : Signal) (job : Launch)
    (run : Run) (hp : (Floor.after crates es).role p = some job)
    (hr : (Floor.after crates es).world.ledger.runs.get? job.runId = some run) (ho : run.outcome = .running)
    (hclosed : ∀ run', (Floor.after crates (es ++ [.act p o])).world.ledger.runs.get? job.runId = some run' →
      run'.outcome ≠ .running)
    (hattempt : run.recoveryAttempt < maxRecoveryAttempts) (hrequested : run.cancellationRequestedAt = none)
    (hagent : ((Floor.after crates es).world.agent job.runId).Failed) :
    ((Floor.after crates (es ++ [.act p o])).world.ledger.Retried job.runId ↔ job.backend.onHost = true ∧
      run.processId.isSome = true ∧ ((Floor.after crates es).world.agent job.runId).givenUp = false) ∧
    (job.backend.onHost = true → ((Floor.after crates es).world.agent job.runId).reset = false →
      run.processId.isSome = true ∧ ((Floor.after crates es).world.agent job.runId).givenUp = false) := by
  obtain ⟨ms, htracks, H⟩ := custody_after crates es
  have hstep : Floor.after crates (es ++ [.act p o]) = Floor.step crates (Floor.after crates es) (.act p o) := by
    simp only [Floor.after, Transition.run_append, Transition.run_cons, Transition.run_nil]
  rw [hstep] at hclosed ⊢
  rcases act_cases htracks H hp o with hsame | ⟨m, a, hw, hf, hok, hnext⟩
  · rw [hsame] at hclosed
    exact (hclosed run hr ho).elim
  rw [hnext] at hclosed ⊢
  rcases perform_writes crates (Floor.after crates es).world p o hok with hsame | ⟨op, hledger, hfailure, hop⟩
  · have hsame : ((Floor.after crates es).world.exec crates p ⟨job, a⟩ o).2.ledger = _ := hsame
    exact (hclosed run (hsame ▸ hr) ho).elim
  have hledger : ((Floor.after crates es).world.exec crates p ⟨job, a⟩ o).2.ledger = _ := hledger
  obtain ⟨run', hr', hmoves⟩ := (Ledger.run_step crates (Floor.after crates es).world.ledger
    ⟨o.host, op⟩).kept hr
  have hover : run'.outcome ≠ .running := hclosed run' (hledger ▸ hr')
  have hid := KeyedTable.key_of_get? hr
  rcases hop with ⟨-, hop⟩ | ⟨processId, identity, rfl⟩
  · have hcloses : op.closes job.runId = true := by
      rcases hmoves.closed with h | h | h
      · exact (hover (h.trans ho)).elim
      · rwa [hid] at h
      · cases op with
        | recoverOrphanedRuns | recoverOrphanedRunsForRepository => exact hop.elim
        | _ => cases h
    rw [hw.agent] at hagent ⊢
    rw [hledger]
    exact ⟨closing_write_retries hw hf hop hcloses hfailure hr hattempt hrequested hagent,
      hw.undisturbed hf hr hagent⟩
  · rcases hmoves.closed with h | h | h
    · exact (hover (h.trans ho)).elim
    · cases h
    · cases h

/-! ## One agent on the host and one in a sandbox -/

/-- The first run is claimed. -/
def claimed : List Floor.Event := (exampleCalls [exampleDaemon, examplePoll "r1" true, exampleClaim]).map
  fun c => .env (.outside (.call c))

/-- The first `n` steps of the worker of the first run. -/
def failingWorker (backend : Backend) (n : ℕ) : List Floor.Event :=
  claimed ++ .start 0 (exampleJob backend) :: List.replicate n (.act 0 failingSignal)

def hostBackend : Backend := .host .codex none

def sandboxBackend : Backend := .dockerSandbox exampleSetup.worker

/-- The run that the worker closes with its next step. -/
def closingRun (backend : Backend) (n : ℕ) : Option Run :=
  (Floor.after exampleCrates (failingWorker backend n)).world.ledger.runs.get? 1

set_option maxRecDepth 8000 in
theorem failed_agent_retried_onHost :
    (Floor.after exampleCrates (failingWorker hostBackend 24 ++ [.act 0 failingSignal])).world.ledger.Retried 1 := by
  have hclosed : ∀ run', (Floor.after exampleCrates
      (failingWorker hostBackend 24 ++ [.act 0 failingSignal])).world.ledger.runs.get? 1 = some run' →
      run'.outcome ≠ .running := by
    decide
  exact (failed_agent_retried_iff exampleCrates (failingWorker hostBackend 24) 0 failingSignal
    (exampleJob hostBackend) ((closingRun hostBackend 24).get (by decide)) (by decide) (by decide) (by decide)
    hclosed (by decide) (by decide) (by decide)).1.mpr ⟨rfl, by decide, by decide⟩

/-- A session that could not be resumed: its agent fails, and the fallback cannot create its first file. -/
def unanchoredFallback : List Floor.Event :=
  failingWorker (.host .codex (some "session-1")) 28 ++
    [.act 0 { failingSignal with failure := some ["No space left on device"] }, .act 0 failingSignal,
      .act 0 failingSignal]

set_option maxRecDepth 8000 in
-- the process id is forgotten for a fallback that does not put its own on record
example : ((Floor.after exampleCrates unanchoredFallback).world.agent 1).Failed ∧
    ((Floor.after exampleCrates unanchoredFallback).world.ledger.runs.get? 1).map (·.processId) = some none ∧
    ((Floor.after exampleCrates (unanchoredFallback ++ [.act 0 failingSignal])).world.ledger.runs.get? 1).map
      (·.outcome) = some .failed ∧
    ¬ (Floor.after exampleCrates (unanchoredFallback ++ [.act 0 failingSignal])).world.ledger.Retried 1 := by
  decide

set_option maxRecDepth 8000 in
/-- The agent in the sandbox has failed like the one on the host, and its task fails at once. -/
theorem failed_agent_not_retried : ¬ ∀ (crates : Crates) (es : List Floor.Event) (p : ℕ) (o : Signal)
    (job : Launch) (run : Run), (Floor.after crates es).role p = some job →
    (Floor.after crates es).world.ledger.runs.get? job.runId = some run → run.outcome = .running →
    (∀ run', (Floor.after crates (es ++ [.act p o])).world.ledger.runs.get? job.runId = some run' →
      run'.outcome ≠ .running) →
    run.recoveryAttempt < maxRecoveryAttempts → run.cancellationRequestedAt = none →
    ((Floor.after crates es).world.agent job.runId).Failed →
      (Floor.after crates (es ++ [.act p o])).world.ledger.Retried job.runId := by
  intro h
  have hretried := h exampleCrates (failingWorker sandboxBackend 24) 0 failingSignal
    (exampleJob sandboxBackend) ((closingRun sandboxBackend 24).get (by decide)) (by decide) (by decide)
    (by decide) (by decide) (by decide) (by decide) (by decide)
  revert hretried
  decide

end Engine
end FlashyFactory
