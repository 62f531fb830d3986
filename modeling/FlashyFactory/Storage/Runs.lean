import FlashyFactory.Storage.Tasks

/-! # Running, closing and recovering runs

The operations of `storage.rs` on the rows of `runs`: the observations of a running run, its
cancellation, the three ways to close it, and the recovery of runs whose daemon is gone. -/

namespace FlashyFactory
namespace Ledger

/-- `WHERE outcome = 'running'`. -/
def isRunning (run : Run) : Bool := run.outcome = .running

/-- `WHERE state = 'running'`. -/
def taskIsRunning (task : Task) : Bool := task.state = .running

/-- `UPDATE runs SET .. WHERE id = .. AND outcome = 'running'`, for an operation that fails when
no row changes. -/
def updateRunning (l : Ledger) (id : ℕ) (set : Run → Run) (missing : LedgerError)
    (hset : ∀ run, (set run).id = run.id := by intro; rfl) : LedgerResult Unit :=
  if l.runs.hits id isRunning then .ok ((), { l with runs := l.runs.modify id isRunning set hset })
  else .error missing

def setRunAgentProfile (l : Ledger) (runId : ℕ) (profile model reasoningEffort serviceTier : String) :
    LedgerResult Unit :=
  if [profile, model, reasoningEffort, serviceTier].any isBlank then .error .emptyAgentProfile
  else l.updateRunning runId (fun run => { run with
    agentProfile := some profile, model := some model, reasoningEffort := some reasoningEffort
    serviceTier := some serviceTier }) (.runGoneBeforeProfile runId)

def recordRunWorkspace (l : Ledger) (runId : ℕ) (workingDirectory baseBranch baseSha : String)
    (factoryBranch : Option String) (workspaceKind : String) : LedgerResult Unit :=
  l.updateRunning runId (fun run => { run with
    workingDirectory := some workingDirectory, baseBranch := some baseBranch
    baseSha := some baseSha, factoryBranch := factoryBranch
    workspaceKind := some workspaceKind }) (.runGoneBeforeWorkspace runId)

def observeRun (crates : Crates) (host : Host) (l : Ledger) (id : ℕ) (processId : Option ℕ)
    (processIdentity sessionId pullRequest activity : Option String) : LedgerResult Unit :=
  if processId = some 0 then .error .processIdNotPositive
  else
    let sessionId := sessionId.map (truncateUtf8 · maxSessionIdBytes)
    let pullRequest := pullRequest.map (truncateUtf8 · maxPullRequestBytes)
    let activity := activity.map fun value =>
      truncateTailUtf8 (crates.sanitizeForStorage value) maxActivityBytes
    l.updateRunning id (fun run => { run with
      processId := processId <|> run.processId
      processIdentity := processIdentity <|> run.processIdentity
      sessionId := sessionId <|> run.sessionId
      pullRequest := pullRequest <|> run.pullRequest
      activity := activity <|> run.activity
      lastActivityAt := host.nowMillis 0 }) (.runMissingOrTerminal id)

def resetRunRuntimeObservation (host : Host) (l : Ledger) (id : ℕ) : LedgerResult Unit :=
  l.updateRunning id (fun run => { run with
    processId := none, processIdentity := none, sessionId := none, activity := none
    lastActivityAt := host.nowMillis 0 }) (.runMissingOrTerminal id)

/-! ## Cancellation -/

/-- The run's owner holds a lease and its process is alive. -/
def ownerIsLive (host : Host) (l : Ledger) (run : Run) (leaseCutoff : ℤ) : Bool :=
  match run.ownerId, run.ownerPid with
  | some ownerId, some ownerPid =>
    l.ownerHasLease ownerId ownerPid leaseCutoff && host.processIsAlive ownerPid
  | _, _ => false

def isCancellable (run : Run) : Bool := isRunning run && run.cancellationRequestedAt.isNone

def requestRunCancellation (host : Host) (l : Ledger) (id : ℕ) : LedgerResult CancellationRequest :=
  match l.runs.get? id with
  | none => .ok (.notFound, l)
  | some run =>
    if run.outcome ≠ .running then .ok (.terminal run, l)
    else if run.cancellationRequestedAt.isSome then .ok (.alreadyRequested run, l)
    else if !l.ownerIsLive host run (host.nowMillis 0 - daemonOwnerLeaseMillis) then
      .ok (.ownedElsewhere run, l)
    else
      let runs := l.runs.modify id isCancellable fun run =>
        { run with cancellationRequestedAt := some (host.nowMillis 1) }
      match runs.get? id with
      | none => .error .cancelledRunDisappeared
      | some run => .ok (.requested run, { l with runs := runs })

/-! ## Closing a run -/

/-- `UPDATE tasks SET .. WHERE id = .. AND state = 'running'`. -/
def updateRunningTask (l : Ledger) (taskId : ℕ) (set : Task → Task)
    (hset : ∀ task, (set task).id = task.id := by intro; rfl) : Ledger :=
  { l with tasks := l.tasks.modify taskId taskIsRunning set hset }

/-- The task goes back to the queue, to continue `runId`. -/
def requeued (runId : ℕ) (now : ℤ) (task : Task) : Task :=
  { task with state := .queued, updatedAt := now, recoverySourceRunId := some runId }

def ended (state : TaskState) (now : ℤ) (task : Task) : Task :=
  { task with state := state, updatedAt := now }

theorem requeued_id (task : Task) : (requeued runId now task).id = task.id := rfl

theorem ended_id (task : Task) : (ended state now task).id = task.id := rfl

def failPrelaunchAndRequeue (crates : Crates) (host : Host) (l : Ledger) (id : ℕ)
    (error : String) : LedgerResult Run :=
  let error := truncateUtf8 (crates.sanitizeForStorage error) maxErrorBytes
  match (l.runs.get? id).filter fun run => isRunning run && run.processId.isNone with
  | none => .error (.runMissingOrLaunched id)
  | some run =>
    let now := host.nowMillis 0
    if !l.runs.hits id isRunning then .error (.runChangedDuringPrelaunch id)
    else
      let runs := l.runs.modify id isRunning fun run =>
        { run with outcome := .failed, finishedAt := some now, error := some error }
      if !l.tasks.hits run.taskId taskIsRunning then .error (.taskChangedDuringPrelaunch run.taskId)
      else
        let l' := { l with runs := runs }
        let l' := if run.recoveryAttempt < maxRecoveryAttempts then
            l'.updateRunningTask run.taskId (requeued id now) requeued_id
          else l'.updateRunningTask run.taskId (ended .failed now) ended_id
        match l'.runs.get? id with
        | none => .error .prelaunchRunDisappeared
        | some run => .ok (run, l')

/-- The task state for the outcome of its run. -/
def taskStateFor : RunOutcome → TaskState
  | .succeeded => .succeeded
  | .failed => .failed
  | .cancelled => .cancelled
  | .running => .running

/-- A requested cancellation overrides the outcome that the worker reports. -/
def closeOutcome (run : Run) (outcome : RunOutcome) : RunOutcome :=
  if run.cancellationRequestedAt.isSome then .cancelled else outcome

/-- The columns that the completion of a run writes. -/
def completed (outcome : RunOutcome) (result error sessionId : Option String) (now : ℤ)
    (run : Run) : Run :=
  { run with
    finishedAt := some now, outcome := outcome, result := result, error := error
    sessionId := sessionId <|> run.sessionId }

theorem completed_id (run : Run) :
    (completed outcome result error sessionId now run).id = run.id := rfl

def cancellationError : String := "Cancellation requested by local operator"

/-- The run is put back on the queue instead of failing its task. -/
def retryRecovery (allowRecovery : Bool) (outcome : RunOutcome) (run : Run) : Bool :=
  allowRecovery && outcome = .failed && run.processId.isSome &&
    run.recoveryAttempt < maxRecoveryAttempts && run.cancellationRequestedAt.isNone

def finishRunAndTaskWithRecovery (crates : Crates) (host : Host) (l : Ledger) (id : ℕ)
    (outcome : RunOutcome) (result error sessionId : Option String) (allowRecovery : Bool) :
    LedgerResult Run :=
  if outcome = .running then .error .outcomeNotTerminal
  else
    let result := result.map fun value => truncateUtf8 (crates.sanitizeForStorage value) maxResultBytes
    let error := error.map fun value => truncateUtf8 (crates.sanitizeForStorage value) maxErrorBytes
    let sessionId := sessionId.map (truncateUtf8 · maxSessionIdBytes)
    match (l.runs.get? id).filter isRunning with
    | none => .error (.runMissingOrTerminal id)
    | some run =>
      let error :=
        if run.cancellationRequestedAt.isSome then error <|> some cancellationError else error
      let outcome := closeOutcome run outcome
      if !l.runs.hits id isRunning then .error (.runMissingOrTerminal id)
      else
        let runs := l.runs.modify id isRunning
          (completed outcome result error sessionId (host.nowMillis 0)) completed_id
        if !l.tasks.hits run.taskId taskIsRunning then .error (.taskNotRunning run.taskId)
        else
          let l' := { l with runs := runs }
          let l' := if retryRecovery allowRecovery outcome run then
              l'.updateRunningTask run.taskId (requeued id (host.nowMillis 1)) requeued_id
            else
              l'.updateRunningTask run.taskId (ended (taskStateFor outcome) (host.nowMillis 1))
                ended_id
          match l'.runs.get? id with
          | none => .error .completedRunDisappeared
          | some run => .ok (run, l')

def finishRunAndTask (crates : Crates) (host : Host) (l : Ledger) (id : ℕ) (outcome : RunOutcome)
    (result error sessionId : Option String) : LedgerResult Run :=
  l.finishRunAndTaskWithRecovery crates host id outcome result error sessionId true

def finishRunAndTaskTerminal (crates : Crates) (host : Host) (l : Ledger) (id : ℕ)
    (outcome : RunOutcome) (result error sessionId : Option String) : LedgerResult Run :=
  l.finishRunAndTaskWithRecovery crates host id outcome result error sessionId false

/-! ## Orphaned runs -/

/-- `terminate_orphaned_process_group`; `false` is an error. -/
def terminateOrphanedProcessGroup (host : Host) (processId : ℕ) : Bool :=
  processId ≠ 0 && processId ≤ maxI32 && host.killpg processId

/-- The recorded process still runs, so recovery has to stop it first. -/
def processSurvives (host : Host) (run : Run) : Bool :=
  match run.processId, run.processIdentity with
  | some processId, some recorded => 0 < processId && host.processIdentity processId = some recorded
  | _, _ => false

def unresolvedDetail (repository : String) (taskRepository : Option String) (run : Run) : String :=
  "Flashy Factory could not resolve interrupted run " ++ toString run.id
    ++ " to owning repository " ++ repository ++ "; run repository is " ++ debugStr run.repository
    ++ " and task repository is " ++ debugOption taskRepository

def orphanCancelled : String :=
  "Flashy Factory completed a durable cancellation after its owning daemon stopped"

def orphanInterrupted : String :=
  "Flashy Factory detected an interrupted run without a live owned process"

/-- The columns that recovery writes when it closes the orphan `run`. -/
def orphanClosed (run : Run) (now : ℤ) (r : Run) : Run :=
  { r with
    outcome := closeOutcome run .failed, finishedAt := some now
    error := some (if run.cancellationRequestedAt.isSome then orphanCancelled else orphanInterrupted) }

theorem orphanClosed_id (r : Run) : (orphanClosed run now r).id = r.id := rfl

/-- Closes the orphan `run`: cancelled, back to the queue, or out of attempts. -/
def closeOrphan (l : Ledger) (run : Run) (now : ℤ) (report : RecoveryReport) :
    RecoveryReport × Ledger :=
  let l' := { l with runs := l.runs.modify run.id isRunning (orphanClosed run now) orphanClosed_id }
  if run.cancellationRequestedAt.isSome then
    (report, l'.updateRunningTask run.taskId (ended .cancelled now) ended_id)
  else if run.recoveryAttempt < maxRecoveryAttempts then
    ({ report with recoveredRunIds := report.recoveredRunIds ++ [run.id] },
      l'.updateRunningTask run.taskId (requeued run.id now) requeued_id)
  else
    ({ report with exhaustedRunIds := report.exhaustedRunIds ++ [run.id] },
      l'.updateRunningTask run.taskId (ended .failed now) ended_id)

/-- The run belongs to another repository than the one to recover. -/
def ownedByOther (l : Ledger) (repository : Option String) (run : Run) : Bool :=
  repository.any fun repository => run.repository ≠ repository ||
    (l.tasks.get? run.taskId).map Task.repository ≠ some repository

/-- One turn of the loop of `recover_orphaned_runs_matching`. -/
def recoverRun (host : Host) (repository : Option String) (leaseCutoff now : ℤ) (run : Run)
    (report : RecoveryReport) (l : Ledger) : LedgerResult RecoveryReport :=
  if l.ownerIsLive host run leaseCutoff then .ok (report, l)
  else if l.ownedByOther repository run then
    let detail := unresolvedDetail (repository.getD "") ((l.tasks.get? run.taskId).map Task.repository) run
    .ok ({ report with unresolvedRunIds := report.unresolvedRunIds ++ [run.id] }, { l with
      runs := l.runs.modify run.id isRunning fun r =>
        { r with error := some detail, activity := some detail, lastActivityAt := now } })
  else if processSurvives host run && !terminateOrphanedProcessGroup host (run.processId.getD 0) then
    .error (.processTreeNotStopped run.id)
  else .ok (l.closeOrphan run now report)

def recoverRuns (host : Host) (repository : Option String) (leaseCutoff : ℤ) :
    ℕ → List Run → RecoveryReport → Ledger → LedgerResult RecoveryReport
  | _, [], report, l => .ok (report, l)
  | i, run :: runs, report, l =>
    match l.recoverRun host repository leaseCutoff (host.nowMillis i) run report with
    | .error e => .error e
    | .ok (report, l) => recoverRuns host repository leaseCutoff (i + 1) runs report l

/-- `SELECT * FROM runs WHERE outcome = 'running' ORDER BY id`. -/
def activeRuns (l : Ledger) : List Run :=
  (l.runs.rows.filter isRunning).insertionSort fun a b => a.id ≤ b.id

def recoverOrphanedRunsMatching (host : Host) (l : Ledger) (repository : Option String) :
    LedgerResult RecoveryReport :=
  recoverRuns host repository (host.nowMillis 0 - daemonOwnerLeaseMillis) 1 l.activeRuns {} l

def recoverOrphanedRuns (host : Host) (l : Ledger) : LedgerResult RecoveryReport :=
  l.recoverOrphanedRunsMatching host none

def recoverOrphanedRunsForRepository (host : Host) (l : Ledger) (repository : String) :
    LedgerResult RecoveryReport :=
  if isBlank repository then .error .emptyRecoveryRepository
  else l.recoverOrphanedRunsMatching host (some repository)

end Ledger
end FlashyFactory
