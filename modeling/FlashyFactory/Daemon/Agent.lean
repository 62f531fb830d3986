import FlashyFactory.Sandbox.Worker

/-! # The worker of a claimed run

The future that `dispatch_available` spawns for a run: authorization, `prepare_task_workspace`,
the prompt, `execute_task_inner` or `execute_sandbox_task`, `finalize_task_workspace`. The agent of
`execute_task_inner` is started and awaited by `CodexRuntime` or `GenericRuntime` of `runtime.rs`. -/

namespace FlashyFactory
open Process Script

/-! ## Records -/

/-- The names that `build_runtime` knows. -/
inductive AgentRuntime
  | codex
  | codexMinimal
  | claudeCode
deriving DecidableEq, Repr

namespace AgentRuntime

def name : AgentRuntime → String
  | codex => "codex"
  | codexMinimal => "codex-minimal"
  | claudeCode => "claude-code"

def executable : AgentRuntime → String
  | codex | codexMinimal => "codex"
  | claudeCode => "claude"

/-- `GenericRuntime`. -/
def generic : AgentRuntime → Bool
  | codex => false
  | _ => true

end AgentRuntime

/-- How the agent of a run is executed: on the host, where the session of the interrupted run may
be resumed, or in a sandbox. -/
inductive Backend
  | host (runtime : AgentRuntime) (recoverySession : Option String)
  | dockerSandbox (worker : SandboxWorker)
deriving DecidableEq

inductive WorkflowTrigger
  | source
  | status
  | label
  | schedule
deriving DecidableEq, Repr

/-- What `dispatch_available` hands to the worker of a run. -/
structure Launch where
  runId : ℕ
  ownerId : String
  /-- The `CancellationToken` that `run_loop` was given. -/
  token : ℕ
  trigger : WorkflowTrigger
  providerName : String
  backend : Backend
  /-- The clock when the sandbox is recorded. -/
  now : ℤ
deriving DecidableEq

/-- The `RuntimeObservation` in the channel of a run. -/
structure ChannelObservation extends RuntimeObservation where
  processId : Option ℕ := none
  processIdentity : Option String := none
  sessionId : Option String := none
deriving DecidableEq, Repr

structure ActivityCapture where
  threadId : Option String := none
  malformedLine : Option String := none
deriving DecidableEq, Repr

/-! ## Commands -/

/-- The commands of a worker, one for each place where it leaves the process or looks at what it
shares with others. -/
inductive WorkerCmd
  /-- A command of the sandbox worker; every write of the worker's own ledger is one. -/
  | shared (c : Cmd)
  /-- A command of `persist_run_anchor`. -/
  | anchor (c : Cmd)
  /-- `authorize`, `authorize_project_claim` or `authorize_label_claim` -/
  | authorize
  | prepareTaskWorkspace
  | executionPrompt
  | finalizeTaskWorkspace
  /-- `repository_observation_channel` and `spawn_run_monitor` -/
  | spawnRunMonitor
  | abortRunMonitor
  /-- `run_cancellation.is_cancelled()` -/
  | isCancelled
  /-- `remaining.is_zero()` -/
  | remainingIsZero
  | preparationTermination
  | temporaryFile
  /-- `RunProcessGroup::start` -/
  | startProcessGroup
  | configureProcessGroup
  | stopProcessGroup
  /-- `observations.send_replace(..)` of the anchor -/
  | sendAnchor (processId : ℕ) (processIdentity : String)
  /-- `spawn_with_retry` under `select!` -/
  | spawnAgent
  | takePipes
  /-- `deliver_prompt` under `select!` -/
  | deliverPrompt (prompt : String)
  | terminate
  /-- `wait_for_clean_exit` under `select!` -/
  | waitForExit
  | reapProcessGroup
  /-- `join_reader` of the activity of Codex -/
  | joinActivity
  | joinPipe (stream : String)
  | readFinalResponse
  /-- `observations.borrow().clone()` -/
  | latestObservation
  /-- The future is ready: its result goes to `runs.join_next()`. -/
  | finished

@[reducible] def WorkerCmd.Value : WorkerCmd → Type
  | shared c | anchor c => c.Value
  | isCancelled | remainingIsZero => Bool
  | preparationTermination | spawnAgent | deliverPrompt _ => Option Termination
  | prepareTaskWorkspace | executionPrompt | joinPipe _ | readFinalResponse => String
  | startProcessGroup => ℕ × String
  | terminate => ExitStatus
  | waitForExit => Woken
  | joinActivity => ActivityCapture
  | latestObservation => ChannelObservation
  | _ => Unit

abbrev WorkerCmd.Answer (a : WorkerCmd) : Type := Except (List String) a.Value

/-- An `async fn` of the worker that returns an `anyhow::Result`. -/
abbrev Work (β : Type) := Script WorkerCmd WorkerCmd.Answer Failure β

namespace Work

/-- A command with `?`. -/
def act (a : WorkerCmd) : Work a.Value := issue a fun r => r.mapError fun chain => ⟨chain, none⟩

def shared (x : Async β) : Work β := embed WorkerCmd.shared x

def anchor (x : Async β) : Work β := embed WorkerCmd.anchor x

/-- A write of the worker's ledger, with `?`. -/
def write (op : Op) : Work Unit := act (.shared (.write op))

def context (message : String) (x : Work β) : Work β := mapFailure (Failure.context message) x

/-- `let _ = x`. -/
def ignore (x : Work β) : Work Unit := do
  let _ ← attempt x

end Work

open Work

/-! ## `runtime.rs` -/

def preparationResult (termination : Termination) : ExecutionResult where
  status := .code 1
  termination := termination
  finalResponse := ""
  threadId := none
  activityError := none
  stderrTail := ""

def persistRunAnchor (runId processId : ℕ) (processIdentity : String) : Async Unit := do
  Async.command .openLedger
  FlashyFactory.write (.observeRun runId (some processId) (some processIdentity) none none none)

namespace AgentRuntime

/-- The readers of the agent's output, and the result. -/
def collect (R : AgentRuntime) (status : ExitStatus) (termination : Termination) :
    Work ExecutionResult := do
  if R.generic then
    let stdout ← act (.joinPipe "stdout")
    let stderrTail ← act (.joinPipe "stderr")
    pure ⟨status, termination, stdout, none, none, stderrTail⟩
  else
    let capture ← act .joinActivity
    let stderrTail ← act (.joinPipe "stderr")
    match termination, capture.malformedLine with
    | .exited, some error => throw ⟨["Codex emitted malformed JSON activity: " ++ error], none⟩
    | _, _ =>
      let finalResponse ← context "failed to read Codex final response" (act .readFinalResponse)
      pure ⟨status, termination, finalResponse, capture.threadId, capture.malformedLine, stderrTail⟩

/-- The last `tokio::select!` of `run`. -/
def awaitExit : Work (ExitStatus × Termination) := do
  match ← act .waitForExit with
  | .cancelled => return (← act .terminate, .cancelled)
  | .deadline => return (← act .terminate, .timedOut)
  | .exited status => return (status, .exited)

/-- `cleanup_failed_delivery`. -/
def cleanUpFailedDelivery : Work Unit := do
  ignore (act .terminate)
  ignore (act .stopProcessGroup)
  ignore (act (.joinPipe "stdout"))
  ignore (act (.joinPipe "stderr"))

/-- `run` once the agent has been spawned. -/
def supervise (R : AgentRuntime) (prompt : String) : Work ExecutionResult := do
  act .takePipes
  match ← attempt (act (.deliverPrompt prompt)) with
  | .error error =>
    cleanUpFailedDelivery
    throw error
  | .ok (some termination) =>
    let status ← act .terminate
    act .reapProcessGroup
    R.collect status termination
  | .ok none =>
    let (status, termination) ← awaitExit
    act .reapProcessGroup
    R.collect status termination

/-- The agent does not start: what `preparation_termination` or the spawn was interrupted by. -/
def giveUp (termination : Termination) : Work ExecutionResult := do
  act .stopProcessGroup
  pure (preparationResult termination)

/-- `run` once the process group is on record. -/
def spawnAndSupervise (R : AgentRuntime) (prompt : String) : Work ExecutionResult := do
  match ← act .preparationTermination with
  | some termination => giveUp termination
  | none =>
    match ← attempt (act .spawnAgent) with
    | .error error =>
      ignore (act .stopProcessGroup)
      throw (error.context ("failed to start " ++ R.executable ++ " CLI"))
    | .ok (some termination) => giveUp termination
    | .ok none => R.supervise prompt

/-- `run` once the process group exists; `before_spawn` is `persist_run_anchor`. -/
def anchorAndSpawn (R : AgentRuntime) (runId : ℕ) (prompt : String) (processId : ℕ)
    (processIdentity : String) : Work ExecutionResult := do
  match ← attempt (Work.anchor (persistRunAnchor runId processId processIdentity)) with
  | .error error =>
    context "failed to stop process group after persistence failure" (act .stopProcessGroup)
    throw error
  | .ok () =>
    act (.sendAnchor processId processIdentity)
    R.spawnAndSupervise prompt

/-- `run` after the checks that need no process group. -/
def prepareAndSpawn (R : AgentRuntime) (runId : ℕ) (prompt : String) : Work ExecutionResult := do
  let (processId, processIdentity) ← act .startProcessGroup
  act .configureProcessGroup
  match ← act .preparationTermination with
  | some termination => giveUp termination
  | none => R.anchorAndSpawn runId prompt processId processIdentity

def run (R : AgentRuntime) (runId : ℕ) (prompt : String) (resumeSession : Option String) :
    Work ExecutionResult := do
  match ← act .preparationTermination with
  | some termination => pure (preparationResult termination)
  | none =>
    if R.generic then
      if resumeSession.isSome then
        throw ⟨[R.executable ++ " runtime does not support session resume"], none⟩
      else R.prepareAndSpawn runId prompt
    else
      context "failed to create Codex final-response file" (act .temporaryFile)
      R.prepareAndSpawn runId prompt

end AgentRuntime

/-! ## `execute_task_inner` -/

/-- The resumed session ended in a way that calls for a fresh one. -/
def needsFallback : Except Failure ExecutionResult → Bool
  | .ok result => result.termination = .exited && !result.status.success
  | .error _ => true

def resumeDetail : Except Failure ExecutionResult → String
  | .ok result => "Codex session resume exited with " ++ result.status.display
  | .error error => "Codex session resume failed: " ++ error.display

def fallbackPrompt (crates : Crates) (providerName prompt detail : String) : String :=
  prompt ++ "\n\n# Session fallback\n\nThe stored Codex session could not be resumed: "
    ++ crates.sanitizeForStorage detail
    ++ ".\nStart one bounded recovery run. Inspect current Git, " ++ providerName
    ++ ", change-request, and CI reality before continuing. Do not replay assumed steps."

/-- The bounded recovery run after a session that could not be resumed. -/
def fallBack (R : AgentRuntime) (runId : ℕ) (prompt : String) : Work (Except Failure ExecutionResult) := do
  act .abortRunMonitor
  match ← attempt (Work.write (.resetRunRuntimeObservation runId)) with
  | .error error =>
    Work.write (.finishRunAndTask runId .failed none
      (some ("failed to prepare a fresh recovery fallback: " ++ error.display)) none)
    throw (error.context "failed to prepare a fresh recovery fallback")
  | .ok () =>
    act .spawnRunMonitor
    attempt (R.run runId prompt none)

def resumeSession (crates : Crates) (R : AgentRuntime) (runId : ℕ) (providerName prompt session : String) :
    Work (Except Failure ExecutionResult) := do
  let resumed ← attempt (R.run runId prompt (some session))
  if needsFallback resumed then
    if ← act .isCancelled then pure resumed
    else
      let detail := resumeDetail resumed
      Work.write (.observeRun runId none none none none (some detail))
      if ← act .remainingIsZero then pure resumed
      else fallBack R runId (fallbackPrompt crates providerName prompt detail)
  else pure resumed

def executeAgent (crates : Crates) (R : AgentRuntime) (runId : ℕ) (providerName prompt : String)
    (session : Option String) : Work (Except Failure ExecutionResult) :=
  match session with
  | some session => resumeSession crates R runId providerName prompt session
  | none => attempt (R.run runId prompt none)

/-- The observation that the channel holds last. -/
def recordLatest (runId : ℕ) : Work Unit := do
  let observation ← act .latestObservation
  if 0 < observation.sequence then
    Work.write (.observeRun runId observation.processId observation.processIdentity
      observation.sessionId observation.pullRequest observation.activity)

def executeTask (crates : Crates) (R : AgentRuntime) (runId : ℕ) (providerName prompt : String)
    (session : Option String) : Work Unit := do
  act .spawnRunMonitor
  let execution ← executeAgent crates R runId providerName prompt session
  act .abortRunMonitor
  recordLatest runId
  match execution with
  | .ok result => Work.shared (recordExecution runId R.name result)
  | .error error =>
    Work.write (.finishRunAndTask runId .failed none (some error.display) none)
    throw error

/-! ## The worker -/

/-- `execute_sandbox_task` runs its agent between the start and the end of the run's monitor. -/
def executeMonitored (S : SandboxWorker) (crates : Crates) (now : ℤ) (runId : ℕ) (clone prompt : String) :
    Work Unit := do
  act .spawnRunMonitor
  let execution ← attempt (Work.shared (S.run runId clone prompt (persist S crates now runId)))
  act .abortRunMonitor
  Work.shared (recordObservation runId)
  match execution with
  | .ok (result, identity) => Work.shared (finishExecuted runId clone result identity)
  | .error error => Work.shared (finishFailed runId clone error)

def Launch.execute (crates : Crates) (job : Launch) (clone prompt : String) : Work Unit :=
  match job.backend with
  | .host runtime session => executeTask crates runtime job.runId job.providerName prompt session
  | .dockerSandbox S => executeMonitored S crates job.now job.runId clone prompt

/-- A ticket that is no longer authorized goes back to the queue. -/
def rejectUnauthorized (job : Launch) (error : Failure) : Work Unit :=
  let detail := "ticket authorization failed: " ++ error.display
  if job.trigger = .schedule then
    Work.write (.finishRunAndTask job.runId .failed none (some detail) none)
  else Work.write (.failPrelaunchAndRequeue job.runId detail)

def authorize (job : Launch) : Work Unit :=
  if job.trigger = .schedule then pure () else act .authorize

/-- The run is executed, and its workspace finalized whatever came of it. -/
def executeAndFinalize (crates : Crates) (job : Launch) (clone prompt : String) : Work Unit := do
  let result ← attempt (job.execute crates clone prompt)
  ignore (act .finalizeTaskWorkspace)
  match result with
  | .ok () => pure ()
  | .error error => throw error

def prepareAndExecute (crates : Crates) (job : Launch) : Work Unit := do
  match ← attempt (act .prepareTaskWorkspace) with
  | .error error =>
    Work.write (.failPrelaunchAndRequeue job.runId ("workspace preparation failed: " ++ error.display))
  | .ok clone =>
    match ← attempt (act .executionPrompt) with
    | .error error =>
      Work.write (.failPrelaunchAndRequeue job.runId
        ("execution prompt preparation failed: " ++ error.display))
    | .ok prompt => executeAndFinalize crates job clone prompt

def runWorker (crates : Crates) (job : Launch) : Work Unit := do
  match ← attempt (authorize job) with
  | .error error => rejectUnauthorized job error
  | .ok () => prepareAndExecute crates job

end FlashyFactory
