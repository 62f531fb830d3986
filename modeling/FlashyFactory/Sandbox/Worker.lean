import FlashyFactory.Sandbox.World

/-! # The programs that drive a sandbox

`SandboxWorker` of `sandbox.rs`, and `execute_sandbox_task` and `reconcile_sandbox_workers` of
`daemon.rs`. A call with `?` is a step of `Async`; a result that is matched or ignored is an
`attempt`. -/

namespace FlashyFactory
open Process Script

/-- An `async fn` that returns an `anyhow::Result`. -/
abbrev Async (β : Type) := Script Cmd Cmd.Answer Failure β

namespace Async

/-- A command with `?`. -/
def command (c : Cmd) : Async c.Value := issue c fun a => a.mapError fun chain => ⟨chain, none⟩

/-- `.context(message)`. -/
def context (message : String) (x : Async β) : Async β := mapFailure (Failure.context message) x

/-- `.unwrap_or_default()`. -/
def orDefault (x : Async String) : Async String := do
  match ← attempt x with
  | .ok text => pure text
  | .error _ => pure ""

/-- `let _ = x`. -/
def ignore (x : Async Unit) : Async Unit := do
  let _ ← attempt x

/-- `bail!(message)`. -/
def bail (message : String) : Async β := throw ⟨[message], none⟩

/-- `value.with_context(message)?`. -/
def orBail (value : Option β) (message : String) : Async β :=
  match value with
  | some b => pure b
  | none => bail message

end Async

open Async

/-! ## Text -/

def maxI64 : ℕ := 9223372036854775807

/-- The positive values of `str::parse::<i64>`. -/
def parseRunId (s : String) : Option ℕ :=
  let digits := match s.toList with
    | '+' :: ds => ds
    | ds => ds
  if digits.isEmpty || !digits.all Char.isDigit then none
  else
    let n := Nat.ofDigitChars 10 digits 0
    if n = 0 || maxI64 < n then none else some n

/-! ## `SandboxWorker` -/

structure SandboxWorker where
  config : WorkerConfig
  instanceId : String
deriving DecidableEq, Repr

namespace SandboxWorker

def limitsJson (S : SandboxWorker) (crates : Crates) : String :=
  crates.jsonToString (.object [("memory", .string S.config.memory),
    ("cpus", .number (toString S.config.cpus)), ("workspace", .string "private_clone"),
    ("isolation", .string "microvm")])

def stop (name : String) : Async Unit := command (.stop name)

def remove (name : String) : Async Unit := command (.rm name)

def logs (name : String) : Async String := command (.logs name)

def create (S : SandboxWorker) (identity : SandboxIdentity) (clone : String) : Async Unit := do
  let clone ← context ("failed to resolve clone " ++ clone) (command (.canonicalize clone))
  context "failed to create Docker Sandbox for the dedicated clone"
    (command (.create identity.name S.config clone))

/-- The `tokio::select!` of `execute`. -/
def await (name : String) : Async (Termination × Option ExitStatus) := do
  match ← command .select with
  | .cancelled =>
    stop name
    pure (.cancelled, none)
  | .deadline =>
    stop name
    pure (.timedOut, none)
  | .exited status => pure (.exited, some status)

def execute (identity : SandboxIdentity) (prompt : String) : Async ExecutionResult := do
  context "failed to start Codex in Docker Sandbox" (command (.spawn identity.name))
  command (.writePrompt prompt)
  let (termination, status) ← await identity.name
  let stdout ← command (.capture "stdout")
  let stderr ← command (.capture "stderr")
  let finalResponse ← orDefault (command (.finalResponse identity.name))
  pure
    { status := status.getD (.code 1)
      termination := termination
      finalResponse := finalResponse
      threadId := none
      activityError := stdout.malformed
      stderrTail := stderr.text }

def identity (S : SandboxWorker) (version : String) (runId : ℕ) : SandboxIdentity where
  name := sandboxName S.instanceId runId
  template := S.config.template
  sbxVersion := trim version
  instanceId := S.instanceId
  runId := runId

def run (S : SandboxWorker) (runId : ℕ) (clone prompt : String)
    (persist : SandboxIdentity → SandboxState → Async Unit) :
    Async (ExecutionResult × SandboxIdentity) := do
  let version ← command .version
  let identity := S.identity version runId
  persist identity .creating
  mapFailure (Failure.sandboxRun identity) (S.create identity clone)
  match ← attempt (persist identity .created) with
  | .error source =>
    ignore (remove identity.name)
    throw (Failure.sandboxRun identity source)
  | .ok () =>
    match ← attempt (execute identity prompt) with
    | .ok result => pure (result, identity)
    | .error source =>
      ignore (stop identity.name)
      throw (Failure.sandboxRun identity source)

/-- The lines of `sbx ls` that start with the prefix of this instance. -/
def parseOwned (S : SandboxWorker) (lines : List String) : Except String (List OwnedSandbox) :=
  let pre := ("factory-" ++ S.instanceId ++ "-").toList
  let owned := lines.filter fun line => pre.isPrefixOf (trim line).toList
  owned.mapM fun line =>
    match parseRunId (String.ofList ((trim line).toList.drop pre.length)) with
    | some runId => .ok ⟨trim line, S.instanceId, runId⟩
    | none => .error "owned Docker Sandbox name has invalid run ID"

def ownedSandboxes (S : SandboxWorker) : Async (List OwnedSandbox) := do
  match S.parseOwned (← command .ls) with
  | .ok owned => pure owned
  | .error message => bail message

/-- The logs of the sandbox, which is stopped if that is possible. -/
def recoverSandbox (sandbox : OwnedSandbox) : Async String := do
  let logs ← orDefault (logs sandbox.name)
  ignore (stop sandbox.name)
  pure logs

def preserveWorkspace (name clone : String) : Async Unit := do
  context "failed to snapshot Docker Sandbox workspace" (command (.snapshot name))
  context "failed to fetch Docker Sandbox workspace" (command (.fetch clone name))
  context "failed to restore Docker Sandbox workspace into host clone" (command (.reset clone))

end SandboxWorker

open SandboxWorker

/-! ## The ledger -/

def write (op : Op) : Async Unit := command (.write op)

def finishRunSandbox (runId : ℕ) (state : SandboxState) (exitCode : Option ℤ)
    (logs : Option String) (removed : Bool) : Async Unit :=
  write (.finishRunSandbox runId state exitCode logs removed)

/-! ## `execute_sandbox_task` -/

/-- The closure that `execute_sandbox_task` hands to `SandboxWorker::run`. -/
def persist (S : SandboxWorker) (crates : Crates) (now : ℤ) (runId : ℕ) (identity : SandboxIdentity)
    (state : SandboxState) : Async Unit := do
  command .openLedger
  if state = .creating then
    write (.recordRunSandbox
      { runId := runId
        sandboxName := identity.name
        instanceId := identity.instanceId
        templateRef := identity.template
        sbxVersion := identity.sbxVersion
        limitsJson := S.limitsJson crates
        state := state
        exitCode := none
        logs := none
        createdAt := now
        updatedAt := now
        removedAt := none })
  else finishRunSandbox runId state none none false

def executionOutcome (runtime : String) (result : ExecutionResult) : RunOutcome × Option String :=
  match result.termination with
  | .cancelled => (.cancelled, some (runtime ++ " execution cancelled"))
  | .timedOut => (.failed, some (runtime ++ " execution timed out"))
  | .exited =>
    if result.status.success then
      match result.activityError with
      | some error => (.failed, some (runtime ++ " emitted malformed JSON activity: " ++ error))
      | none => (.succeeded, none)
    else (.failed, some (runtime ++ " exited with status " ++ result.status.display ++
      "; stderr: " ++ result.stderrTail))

def recordExecution (runId : ℕ) (runtime : String) (result : ExecutionResult) : Async Unit := do
  let (outcome, error) := executionOutcome runtime result
  write (if result.termination = .timedOut then
      .finishRunAndTaskTerminal runId outcome (some result.finalResponse) error result.threadId
    else .finishRunAndTask runId outcome (some result.finalResponse) error result.threadId)
  command (.associateSuccessfulImplementationHandoff runId)

def Termination.sandboxState : Termination → SandboxState
  | exited => .exited
  | timedOut => .timedOut
  | cancelled => .cancelled

/-- `Ok((result, identity))` in `execute_sandbox_task`. -/
def finishExecuted (runId : ℕ) (clone : String) (result : ExecutionResult)
    (identity : SandboxIdentity) : Async Unit := do
  let sandboxState := result.termination.sandboxState
  let sandboxLogs ← orDefault (logs identity.name)
  finishRunSandbox runId sandboxState result.status.code? (some sandboxLogs) false
  match ← attempt (preserveWorkspace identity.name clone) with
  | .error error =>
    ignore (stop identity.name)
    let detail := "Docker Sandbox workspace preservation failed; sandbox retained: " ++ error.display
    finishRunSandbox runId .retained result.status.code? (some detail) false
    write (.finishRunAndTask runId .failed none (some detail) none)
    throw (error.context detail)
  | .ok () =>
    recordExecution runId "codex" result
    finishRunSandbox runId .removing result.status.code? (some sandboxLogs) false
    context "completed Docker Sandbox could not be removed" (remove identity.name)
    finishRunSandbox runId sandboxState result.status.code? (some sandboxLogs) true

/-- The sandbox of a failed run, whose row was read as `recorded`: what went wrong with it. -/
def cleanUpSandbox (runId : ℕ) (clone : String) (recorded : RunSandbox)
    (identity : SandboxIdentity) (evidence : String) : Async (Option Failure) := do
  let preserved ← if recorded.state = .created then attempt (preserveWorkspace identity.name clone)
    else pure (.ok ())
  match preserved with
  | .error preserveError =>
    ignore (stop identity.name)
    let detail := evidence ++ "; workspace preservation failed; sandbox retained: "
      ++ preserveError.display
    finishRunSandbox runId .retained none (some detail) false
    pure (some preserveError)
  | .ok () =>
    finishRunSandbox runId .removing none (some evidence) false
    match ← attempt (remove identity.name) with
    | .ok () =>
      finishRunSandbox runId .error none (some evidence) true
      pure none
    | .error removeError => pure (some removeError)

/-- What the sandbox of a failed run printed. -/
def failureLogs (error : Failure) : Async String :=
  match error.identity with
  | some identity => orDefault (logs identity.name)
  | none => pure ""

/-- The row of a failed run, if there is one, and its sandbox. -/
def finishRecorded (runId : ℕ) (clone : String) (error : Failure) :
    Option RunSandbox → Async (Option Failure)
  | none => pure none
  | some recorded => do
    let logs ← failureLogs error
    let evidence := if logs.isEmpty then error.display else logs
    finishRunSandbox runId .error none (some evidence) false
    match error.identity with
    | none => pure none
    | some identity => cleanUpSandbox runId clone recorded identity evidence

/-- `Err(error)` in `execute_sandbox_task`. -/
def finishFailed (runId : ℕ) (clone : String) (error : Failure) : Async Unit := do
  let cleanupError ← finishRecorded runId clone error (← command (.runSandbox runId))
  let detail := match cleanupError with
    | none => error.display
    | some cleanup => error.display ++ "; sandbox cleanup failed: " ++ cleanup.display
  write (.finishRunAndTask runId .failed none (some detail) none)
  match cleanupError with
  | some cleanup => throw (cleanup.context detail)
  | none => throw error

/-- The pull request and the activity that were observed last. -/
def recordObservation (runId : ℕ) : Async Unit := do
  let observation ← command .observation
  if 0 < observation.sequence then
    write (.observeRun runId none none none observation.pullRequest observation.activity)

def executeSandboxTask (S : SandboxWorker) (crates : Crates) (now : ℤ) (runId : ℕ)
    (clone prompt : String) : Async Unit := do
  let execution ← attempt (S.run runId clone prompt (persist S crates now runId))
  recordObservation runId
  match execution with
  | .ok (result, identity) => finishExecuted runId clone result identity
  | .error error => finishFailed runId clone error

/-! ## `reconcile_sandbox_workers` -/

/-- `workspace_owner_is_resolved`, for the repository identity of the owner. -/
def workspaceOwnerIsResolved (owner : String) (workspace : TaskWorkspace) : Async Bool := do
  let task ← orBail (← command (.task workspace.taskId))
    ("task " ++ toString workspace.taskId ++ " disappeared")
  if task.repository = owner && workspace.repository = owner then pure true
  else
    let summary := "retained because workspace owner could not be resolved: expected=" ++ owner ++
      " task=" ++ task.repository ++ " workspace=" ++ workspace.repository
    write (.updateTaskWorkspaceState workspace.taskId "retained" (some summary))
    pure false

/-- The first loop: a row whose sandbox was being removed and is gone. -/
def forgetRemoved (owned : List OwnedSandbox) (recorded : RunSandbox) : Async Unit :=
  if recorded.state = .removing && !(owned.map OwnedSandbox.name).contains recorded.sandboxName then
    finishRunSandbox recorded.runId .removed recorded.exitCode recorded.logs true
  else pure ()

/-- The activity of a run that is still on record as running. -/
def observeRecovered (runId : ℕ) (run : Run) (logs : String) : Async Unit :=
  if run.outcome = .running then
    write (.observeRun runId none none none none (some ("Recovered Docker Sandbox: " ++ logs)))
  else pure ()

/-- The second loop, once the owner of the workspace is resolved. -/
def recoverOwned (sandbox : OwnedSandbox) (recorded : RunSandbox) (run : Run)
    (workspace : TaskWorkspace) : Async Unit := do
  let logs ← recoverSandbox sandbox
  if recorded.state = .retained then pure ()
  else
    observeRecovered sandbox.runId run logs
    finishRunSandbox sandbox.runId .recovered none (some logs) false
    match ← attempt (preserveWorkspace sandbox.name workspace.path) with
    | .error error =>
      ignore (stop sandbox.name)
      finishRunSandbox sandbox.runId .retained none
        (some ("workspace preservation failed; sandbox retained: " ++ error.display)) false
    | .ok () =>
      finishRunSandbox sandbox.runId .removing none (some logs) false
      remove sandbox.name
      finishRunSandbox sandbox.runId .recovered none (some logs) true

/-- The second loop: a sandbox that exists. -/
def reconcileOwned (owner : String) (sandbox : OwnedSandbox) : Async Unit := do
  let recorded ← orBail (← command (.runSandbox sandbox.runId))
    ("owned sandbox " ++ sandbox.name ++ " has no durable Flashy Factory record")
  if recorded.sandboxName ≠ sandbox.name || recorded.instanceId ≠ sandbox.instanceId then
    bail "owned Docker Sandbox does not match its durable record"
  else
    let run ← orBail (← command (.run sandbox.runId))
      ("run " ++ toString sandbox.runId ++ " for owned sandbox disappeared")
    let workspace ← orBail (← command (.taskWorkspace run.taskId))
      ("task " ++ toString run.taskId ++ " for owned sandbox has no workspace")
    if ← workspaceOwnerIsResolved owner workspace then
      recoverOwned sandbox recorded run workspace
    else
      finishRunSandbox sandbox.runId .retained none
        (some "sandbox retained because workspace owner could not be resolved") false

def reconcileSandboxWorkers (S : SandboxWorker) (owner : String) : Async Unit := do
  let owned ← S.ownedSandboxes
  let recorded ← command (.unremovedRunSandboxes S.instanceId)
  recorded.forM (forgetRemoved owned)
  owned.forM (reconcileOwned owner)

/-! ## The machine -/

/-- What the processes of one data directory share. -/
structure Setup where
  crates : Crates
  worker : SandboxWorker
  /-- The identity of the `RepositoryOwner`. -/
  owner : String

inductive Role
  /-- `execute_sandbox_task`. -/
  | worker (runId : ℕ) (clone prompt : String) (now : ℤ)
  /-- `reconcile_sandbox_workers`. -/
  | recovery
deriving DecidableEq

/-- What happens beside the processes. -/
inductive Outside
  /-- Any other operation of a daemon or a command line. -/
  | call (c : Call)
  /-- The agent command of a sandbox ends. -/
  | agentEnds (name : String)
  /-- Another `git fetch` in a host clone. -/
  | fetch (clone : String)

def World.outside (crates : Crates) (w : World) : Outside → World
  | .call c =>
    -- only the two programs write `run_sandboxes`
    if .runSandboxes ∈ c.op.writes then w else w.callLedger crates c
  | .agentEnds name => w.stopAgent name
  | .fetch clone => { w with fetchHead := Function.update w.fetchHead clone none }

/-- The workspace of the task of a run. -/
def World.clone? (w : World) (runId : ℕ) : Option String :=
  (w.ledger.runs.get? runId).bind fun run =>
    (w.ledger.taskWorkspaces.get? run.taskId).map TaskWorkspace.path

def World.start (w : World) (p : ℕ) (role : Role) : World :=
  let w := { w with handoff := Function.update w.handoff p none }
  match role with
  | .worker runId _ _ _ => { w with launched := runId :: w.launched }
  | .recovery => w

/-- A worker is started once for a run, in the clone of its task. -/
def World.mayStart (w : World) : Role → Bool
  | .worker runId clone _ _ =>
    w.ledger.runs.hits runId Ledger.isRunning && !w.launched.contains runId && w.clone? runId = some clone
  | .recovery => true

def Setup.program (S : Setup) : Role → Prog Cmd Cmd.Answer Unit
  | .worker runId clone prompt now =>
    detach (executeSandboxTask S.worker S.crates now runId clone prompt)
  | .recovery => detach (reconcileSandboxWorkers S.worker S.owner)

def Setup.machine (S : Setup) : Machine World Cmd Cmd.Answer ℕ Role Choice Outside where
  program := S.program
  exec := World.exec S.crates
  mayStart := World.mayStart
  start := World.start
  env := World.outside S.crates

abbrev Daemons := Machine.State World Cmd Cmd.Answer ℕ Role

/-- A fresh data directory on which no process runs. -/
def Daemons.initial : Daemons := ⟨{}, fun _ => none⟩

/-! ## Processes to run -/

def exampleSetup : Setup where
  crates := exampleCrates
  worker := ⟨⟨"docker/codex", "8g", 4⟩, "c0ffee"⟩
  owner := "acme/site"

def cloneWorkspace : TaskWorkspace :=
  { exampleWorkspace 1 with backend := .clone, factoryBranch := none }

def outsideCalls (host : Host) (ops : List Op) : List (Event ℕ Role Choice Outside) :=
  ops.map fun op => .env (.call ⟨host, op⟩)

/-- The next `n` steps of a process, none of which fails. -/
def acts (p n : ℕ) : List (Event ℕ Role Choice Outside) :=
  List.replicate n (.act p { host := exampleHost })

def exampleWorker (runId : ℕ) : Role := .worker runId cloneWorkspace.path "prompt" 0

end FlashyFactory
