import FlashyFactory.Workspace.Clone

/-! # Preparing the workspace of a run

`prepare_task_workspace` of `daemon.rs`: it reserves a workspace for a task that has none, and
prepares the workspace that the task owns with the backend of the execution mode. -/

namespace FlashyFactory

structure RepositoryTarget (ω : Type) where
  path : AbsPath
  provider : RepositoryProvider
  identity : String
  workflows : ω

def numericTicketId (key : String) : Except (List String) ℕ :=
  let complaint := "ticket key " ++ debugStr key ++ " must end in a positive number"
  let digits := (key.toList.rdropWhile isWhiteSpace).rtakeWhile isAsciiDigit
  if digits = [] then .error [complaint, "cannot parse integer from empty string"]
  else
    let number := Nat.ofDigitChars 10 digits 0
    if 2 ^ 64 ≤ number then .error [complaint, "number too large to fit in target type"]
    else if number = 0 then .error [complaint]
    else .ok number

def ticketSummary (contexts : TicketContexts) (task : Task) : Except (List String) TicketSummary :=
  match task.payload with
  | none => .error ["ticket task has no source payload"]
  | some payload =>
    match contexts.source payload with
    | some (key, title) => (numericTicketId key).map fun number => ⟨number, title⟩
    | none =>
      match contexts.project payload <|> contexts.label payload <|> contexts.ticket payload with
      | some summary => .ok summary
      | none => .error ["ticket task contains invalid source context", contexts.complaint payload]

def WorkspaceKind.text : WorkspaceKind → String
  | delivery => "delivery"
  | proposal => "proposal"

def WorkspaceBackend.text : WorkspaceBackend → String
  | worktree => "worktree"
  | clone => "clone"

def expectedBackend (sandboxed : Bool) : WorkspaceBackend := if sandboxed then .clone else .worktree

namespace Prepare
variable (env : Services)

/-- The row of a task without a workspace, at the head of the default branch. -/
def reserve (manager : WorkspaceManager) (workspaceRoot : CanonicalPath) (task : Task)
    (sandboxed : Bool) : Act TaskWorkspace := do
  let baseBranch ← Act.lift (env.defaultBranch 0)
  let baseSha ← manager.fetchDefaultBranch env baseBranch
  let confirmedBranch ← Act.lift (env.defaultBranch 1)
  Act.bailIf (confirmedBranch ≠ baseBranch) ("repository default branch changed from " ++
    debugStr baseBranch ++ " to " ++ debugStr confirmedBranch ++ " during workspace preparation")
  Act.ledger fun l => l.reserveTaskWorkspace env.host
    (taskWorkspaceCandidate task workspaceRoot.display sandboxed baseBranch baseSha)

/-- The row of the task, which may be reserved now, and how far its worktree may be reused. -/
def workspaceOf (manager : WorkspaceManager) (workspaceRoot : CanonicalPath) (task : Task)
    (sandboxed : Bool) (existing : Option TaskWorkspace) : Act (TaskWorkspace × DeliveryReuse) := do
  match existing with
  | none => pure (← reserve env manager workspaceRoot task sandboxed, .reject)
  | some existing =>
    Act.bailIf (existing.state = .cleaned)
      ("task " ++ toString task.id ++ " workspace was already cleaned")
    pure (existing, if existing.state = .preparing then .exactBase else .owned)

def cloneFor (workspaceRoot : AbsPath) (task : Task) (workspace : TaskWorkspace)
    (repositoryTokenEnv : Option String) : Act StandaloneClone := do
  match repositoryTokenEnv with
  | none => Act.bail "sandboxed clone has no repository token source"
  | some tokenEnv =>
    let manager ← Act.lift (CloneManager.new env (← get) workspaceRoot)
    if workspace.factoryBranch.isSome then
      let ticket ← Act.lift (ticketSummary env.ticketContexts task)
      manager.prepare env task.repository task.id ticket.number ticket.title workspace.baseBranch
        workspace.baseSha true tokenEnv
    else
      manager.prepareProposal env task.repository task.id workspace.baseBranch workspace.baseSha
        tokenEnv

def worktreeFor (manager : WorkspaceManager) (task : Task) (workspace : TaskWorkspace)
    (reuse : DeliveryReuse) : Act PreparedWorkspace := do
  if workspace.factoryBranch.isSome then
    let ticket ← Act.lift (ticketSummary env.ticketContexts task)
    manager.prepareDelivery env ticket.number ticket.title workspace.baseBranch workspace.baseSha reuse
  else
    manager.prepareProposal env task.id workspace.baseBranch workspace.baseSha reuse

/-- What both backends do with a workspace that they have prepared. -/
def confirm (taskId : ℕ) (workspace : TaskWorkspace) (mismatch : String) (runId : ℕ) (path : AbsPath)
    (branch : Option String) (baseBranch baseSha : String) : Act AbsPath := do
  Act.bailIf (some path ≠ workspace.path? || branch ≠ workspace.factoryBranch ||
    baseBranch ≠ workspace.baseBranch || baseSha ≠ workspace.baseSha) mismatch
  Act.ledger fun l => l.updateTaskWorkspaceState env.host taskId "ready" none
  Act.ledger fun l => l.recordRunWorkspace runId path.display baseBranch baseSha branch
    workspace.kind.text
  pure path

def withBackend (manager : WorkspaceManager) (workspaceRoot : AbsPath) (task : Task)
    (workspace : TaskWorkspace) (reuse : DeliveryReuse) (runId : ℕ) (sandboxed : Bool)
    (repositoryTokenEnv : Option String) : Act AbsPath := do
  if sandboxed then
    let clone ← cloneFor env workspaceRoot task workspace repositoryTokenEnv
    confirm env task.id workspace ("standalone clone does not match task " ++ toString task.id ++
      " durable reservation") runId clone.path clone.branch clone.baseBranch clone.baseSha
  else
    let prepared ← worktreeFor env manager task workspace reuse
    confirm env task.id workspace ("Git workspace does not match task " ++ toString task.id ++
      " durable reservation") runId prepared.path prepared.branch prepared.baseBranch
      prepared.baseSha

/-- A row of another repository is retained, and nothing is prepared. -/
def checkOwner (repositoryIdentity : String) (task : Task) (existing : Option TaskWorkspace) :
    Act Unit := do
  Act.bailIf (task.repository ≠ repositoryIdentity) ("task " ++ toString task.id ++
    " belongs to repository " ++ task.repository ++ " instead of owning repository " ++
    repositoryIdentity)
  match existing with
  | none => pure ()
  | some existing =>
    if existing.repository ≠ repositoryIdentity then
      Act.ledger fun l => l.updateTaskWorkspaceState env.host task.id "retained"
        (some "retained because workspace owner could not be resolved during execution")
      Act.bail ("task " ++ toString task.id ++ " workspace belongs to repository " ++
        existing.repository ++ " instead of owning repository " ++ repositoryIdentity)

end Prepare

def prepareTaskWorkspace (env : Services) (canonicalTarget : RepositoryTarget ω)
    (repositoryIdentity : String) (workspaceRoot : AbsPath) (task : Task) (runId : ℕ)
    (sandboxed : Bool) (repositoryTokenEnv : Option String) : Act (RepositoryTarget ω) := do
  match env.canonicalize workspaceRoot with
  | none => throw ["failed to canonicalize Flashy Factory workspace root", env.osError]
  | some workspaceRoot =>
    let existing := (← get).ledger.taskWorkspaces.get? task.id
    Prepare.checkOwner env repositoryIdentity task existing
    let manager ← Act.lift
      (WorkspaceManager.new env (← get) canonicalTarget.path workspaceRoot.toAbsPath)
    let (workspace, reuse) ←
      Prepare.workspaceOf env manager workspaceRoot task sandboxed existing
    Act.bailIf (workspace.backend ≠ expectedBackend sandboxed) ("task " ++ toString task.id ++
      " owns a " ++ workspace.backend.text ++
      " workspace but the configured execution mode requires " ++
      (expectedBackend sandboxed).text ++
      "; finish or clean up the task before changing execution_mode")
    let path ← Prepare.withBackend env manager workspaceRoot.toAbsPath task workspace reuse runId
      sandboxed repositoryTokenEnv
    pure { canonicalTarget with path := path }

end FlashyFactory
