import FlashyFactory.Storage.Runs

/-! # Workspaces, sandboxes and continuations

`reserve_task_workspace`, `update_task_workspace_state`, `record_run_sandbox`,
`finish_run_sandbox` and `request_continuation` of `storage.rs`. -/

namespace FlashyFactory
namespace Ledger

/-- `ensure_same_workspace`: the durable facts of a reservation. -/
def sameWorkspace (existing requested : TaskWorkspace) : Bool :=
  existing.kind = requested.kind && existing.backend = requested.backend &&
    existing.repository = requested.repository && existing.baseBranch = requested.baseBranch &&
    existing.baseSha = requested.baseSha && existing.factoryBranch = requested.factoryBranch &&
    existing.path = requested.path

def isRetainedDelivery (workspace : TaskWorkspace) : Bool :=
  workspace.kind = .delivery && workspace.state ≠ .cleaned

/-- The newest run of each task that retains a delivery workspace, oldest workspace first. -/
def retainedDeliveryRunIds (l : Ledger) : List ℕ :=
  let retained := (l.taskWorkspaces.rows.filter isRetainedDelivery).insertionSort fun a b =>
    a.createdAt < b.createdAt ∨ a.createdAt = b.createdAt ∧ a.taskId ≤ b.taskId
  (retained.map fun workspace =>
    ((l.runs.rows.filter fun run => run.taskId = workspace.taskId).map Run.id).foldr max 0).filter (0 < ·)

/-- The row that `reserve_task_workspace` inserts. -/
def reservation (workspace : TaskWorkspace) (now : ℤ) : TaskWorkspace :=
  { workspace with
    state := .preparing, statusSummary := none, createdAt := now, updatedAt := now
    cleanedAt := none }

/-- `task_workspaces_active_branch_idx` and `task_workspaces_active_path_idx`. -/
def conflictsWith (requested : TaskWorkspace) (row : TaskWorkspace) : Bool :=
  row.state ≠ .cleaned && (row.path = requested.path ||
    requested.factoryBranch.isSome && row.factoryBranch = requested.factoryBranch)

def reserveTaskWorkspace (host : Host) (l : Ledger) (workspace : TaskWorkspace) :
    LedgerResult TaskWorkspace :=
  match h : l.taskWorkspaces.get? workspace.taskId with
  | some existing =>
    if sameWorkspace existing workspace then .ok (existing, l)
    else .error (.differentWorkspace workspace.taskId)
  | none =>
    if workspace.kind = .delivery && 10 ≤ l.taskWorkspaces.rows.countP isRetainedDelivery then
      .error (.deliveryWorktreeLimit l.retainedDeliveryRunIds)
    -- `task_workspaces.task_id` references `tasks`
    else if (l.tasks.get? workspace.taskId).isNone ||
        l.taskWorkspaces.rows.any (conflictsWith workspace) then .error .workspaceNotReserved
    else
      let taskWorkspaces := l.taskWorkspaces.insert (reservation workspace (host.nowMillis 0))
        (KeyedTable.get?_eq_none.mp h)
      match taskWorkspaces.get? workspace.taskId with
      | none => .error .reservedWorkspaceDisappeared
      | some reserved => .ok (reserved, { l with taskWorkspaces := taskWorkspaces })

/-- The unique indexes do not admit the row, which is cleaned, in another state. -/
def superseded (l : Ledger) (workspace : TaskWorkspace) : Bool :=
  workspace.state = .cleaned && l.taskWorkspaces.rows.any (conflictsWith workspace)

def updateTaskWorkspaceState (host : Host) (l : Ledger) (taskId : ℕ) (state : String)
    (statusSummary : Option String) : LedgerResult Unit :=
  match WorkspaceState.ofStr? state with
  | none => .error (.invalidWorkspaceState state)
  | some state =>
    let now := host.nowMillis 0
    match l.taskWorkspaces.get? taskId with
    | none => .error (.noWorkspace taskId)
    | some workspace =>
      -- a row that leaves `cleaned` enters the partial unique indexes
      if state ≠ .cleaned && l.superseded workspace then
        .error (.activeWorkspaceExists
          (l.taskWorkspaces.rows.any fun row => row.state ≠ .cleaned && row.path = workspace.path))
      else .ok ((), { l with
        taskWorkspaces := l.taskWorkspaces.modify taskId (fun _ => true) fun workspace =>
          { workspace with
            state := state, statusSummary := statusSummary, updatedAt := now
            cleanedAt := if state = .cleaned then some now else workspace.cleanedAt } })

/-! ## Sandboxes -/

/-- `INSERT INTO run_sandboxes`; `run_id` and `sandbox_name` are unique. -/
def recordRunSandbox (l : Ledger) (sandbox : RunSandbox) : LedgerResult Unit :=
  if !l.runs.hits sandbox.runId isRunning then .error (.runNotRunningForSandbox sandbox.runId)
  else match h : l.runSandboxes.get? sandbox.runId with
    | some _ => .error .sandboxNotPersisted
    | none =>
      if l.runSandboxes.rows.any fun row => row.sandboxName = sandbox.sandboxName then
        .error .sandboxNotPersisted
      else .ok ((), { l with
        runSandboxes := l.runSandboxes.insert { sandbox with updatedAt := sandbox.createdAt }
          (KeyedTable.get?_eq_none.mp h) })

/-- The row after `UPDATE run_sandboxes`. -/
def sandboxFinished (state : SandboxState) (exitCode : Option ℤ) (logs : Option String) (now : ℤ)
    (removed : Bool) (sandbox : RunSandbox) : RunSandbox :=
  { sandbox with
    state := state, exitCode := exitCode, logs := logs <|> sandbox.logs, updatedAt := now
    removedAt := if removed then some now else sandbox.removedAt }

theorem sandboxFinished_runId (sandbox : RunSandbox) :
    (sandboxFinished state exitCode logs now removed sandbox).runId = sandbox.runId := rfl

def finishRunSandbox (host : Host) (l : Ledger) (runId : ℕ) (state : SandboxState)
    (exitCode : Option ℤ) (logs : Option String) (removed : Bool) : LedgerResult Unit :=
  let logs := logs.map (truncateTailUtf8 · maxActivityBytes)
  let now := host.nowMillis 0
  if l.runSandboxes.hits runId fun _ => true then
    .ok ((), { l with
      runSandboxes := l.runSandboxes.modify runId (fun _ => true)
        (sandboxFinished state exitCode logs now removed) sandboxFinished_runId })
  else .error (.noSandbox runId)

/-- `WHERE instance_id = .. AND removed_at IS NULL ORDER BY run_id`. -/
def unremovedRunSandboxes (l : Ledger) (instanceId : String) : List RunSandbox :=
  (l.runSandboxes.rows.filter fun sandbox =>
    sandbox.instanceId = instanceId && sandbox.removedAt.isNone).insertionSort
      fun a b => a.runId ≤ b.runId

/-! ## Continuations -/

def isHexDigit (c : Char) : Bool :=
  ('0' ≤ c && c ≤ '9') || ('a' ≤ c && c ≤ 'f') || ('A' ≤ c && c ≤ 'F')

/-- `validate_pull_request_event_key`: a SHA-256 in hexadecimal for a named task. -/
def validPullRequestEventKey (repository taskGid fingerprint : String) : Bool :=
  !isBlank repository && !isBlank taskGid && fingerprint.utf8ByteSize = 64 &&
    fingerprint.toList.all isHexDigit

def deliveryWorkflow : String := "implement"
def autonomousLabel : String := "factory:auto-to-pr"
def manualLabel : String := "factory:manual"

/-- The labels in the payload of a task; `none` without a readable list. -/
def payloadLabels (crates : Crates) (payload : Option String) : Option (List String) :=
  payload.bind fun payload => (crates.jsonFromStr payload).bind fun json =>
    ((json.get? "labels").bind Json.asArray?).map (List.filterMap Json.asStr?)

/-- The labels authorise deliveries without an operator. -/
def autonomous (crates : Crates) (payload : Option String) : Bool :=
  (payloadLabels crates payload).any fun labels =>
    labels.contains autonomousLabel && !labels.contains manualLabel

/-- The newest delivery task of the ticket that owns a workspace, with that workspace. -/
def continuationTarget (l : Ledger) (repository taskGid : String) : Option (Task × TaskWorkspace) :=
  ((l.tasks.rows.filterMap fun task => (l.taskWorkspaces.get? task.id).bind fun workspace =>
    if task.repository = repository && task.workflow = deliveryWorkflow &&
        task.sourceItem = some taskGid then some (task, workspace) else none).insertionSort
      fun a b => b.1.id ≤ a.1.id).head?

/-- The guard of `request_continuation` on its target. -/
def continuable (crates : Crates) (task : Task) (workspace : TaskWorkspace) : Bool :=
  autonomous crates task.payload && task.state = .succeeded && workspace.kind = .delivery &&
    workspace.state ≠ .cleaned && workspace.factoryBranch.isSome

def isContinuationOf (repository taskGid : String) (c : Continuation) : Bool :=
  c.repository = repository && c.taskGid = taskGid

def requestContinuation (crates : Crates) (host : Host) (l : Ledger)
    (repository taskGid fingerprint : String) : LedgerResult ContinuationRequest :=
  if !validPullRequestEventKey repository taskGid fingerprint then
    .error .invalidPullRequestEventKey
  else match h : l.continuations.get? (repository, taskGid, fingerprint) with
    | some _ => .ok (.duplicate, l)
    | none =>
      match l.continuationTarget repository taskGid with
      | none => .ok (.isUnsafe, l)
      | some (task, workspace) =>
        if !continuable crates task workspace then .ok (.isUnsafe, l)
        else
          let continuations := l.continuations.insert
            ⟨repository, taskGid, fingerprint, task.id, host.nowMillis 0⟩
            (KeyedTable.get?_eq_none.mp h)
          if 3 < continuations.rows.countP (isContinuationOf repository taskGid) then
            .ok (.limitReached, { l with
              continuations := continuations.eraseWhere fun c =>
                isContinuationOf repository taskGid c && c.fingerprint = fingerprint })
          else
            .ok (.queued, { l with
              continuations := continuations
              tasks := l.tasks.modify task.id (fun t => t.state = .succeeded) fun t =>
                { t with state := .queued, updatedAt := host.nowMillis 1 } })

end Ledger
end FlashyFactory
