import FlashyFactory.Lib.Process
import FlashyFactory.Storage.Calls
import FlashyFactory.Workspace.Prepare

/-! # The removal of workspaces

The functions of `workspace.rs`, `clone.rs`, `daemon.rs` and `main.rs` that inspect the directory of a
workspace and remove it, and the machine that runs them: a finalization after each run, a reconciliation
when a daemon starts, and the `cleanup` command of an operator. What else happens to the ledger and to the
directories is up to the environment. -/

namespace FlashyFactory
open Process Script

def automaticDeliveryCleanup : String := "clean published delivery with recorded pull request and handoff"
def operatorConfirmedCleanup : String := "operator-confirmed cleanup"

/-- The `{:?}` form. -/
def TaskState.debugText : TaskState → String
  | queued => "Queued"
  | running => "Running"
  | succeeded => "Succeeded"
  | failed => "Failed"
  | cancelled => "Cancelled"

namespace Ledger

def taskWorkspacesInState (l : Ledger) (state : WorkspaceState) : List TaskWorkspace :=
  (l.taskWorkspaces.rows.filter fun row => row.state = state).insertionSort fun a b => a.taskId ≤ b.taskId

def activeTaskWorkspaces (l : Ledger) : List TaskWorkspace :=
  (l.taskWorkspaces.rows.filter fun row => row.state ≠ .cleaned).insertionSort fun a b => a.taskId ≤ b.taskId

def runsForTask (l : Ledger) (taskId : ℕ) : List Run :=
  (l.runs.rows.filter fun run => run.taskId = taskId).insertionSort fun a b => a.id ≤ b.id

def latestPullRequestForTask (l : Ledger) (taskId : ℕ) : Option String :=
  ((l.runsForTask taskId).filterMap Run.pullRequest).getLast?

end Ledger

/-! ## What Git answers -/

namespace Site

/-- The repository of which a directory is a working tree. -/
def repositoryAt (s : Site) (path : AbsPath) : Option GitRepository :=
  match s.entries.lookup path with
  | some (.clone c) => if (c.repository.workTree? path).isSome then some c.repository else none
  | some .directory => if (s.canonical.workTree? path).isSome then some s.canonical else none
  | _ => none

/-- `git status --porcelain` prints something. -/
def status (s : Site) (path : AbsPath) : Except Git.Error Bool :=
  match s.repositoryAt path with
  | none => .error .notAWorkTree
  | some r => .ok (r.isDirty path)

/-- `git branch --show-current` -/
def currentBranch (s : Site) (path : AbsPath) : Except Git.Error (Option String) :=
  match (s.repositoryAt path).bind fun r => r.workTree? path with
  | none => .error .notAWorkTree
  | some t => .ok t.head.branch?

/-- `git rev-parse HEAD` -/
def head (s : Site) (path : AbsPath) : Except Git.Error String :=
  match s.repositoryAt path with
  | none => .error .notAWorkTree
  | some r => r.revParse path .head

end Site

namespace Removal

/-! ## Commands -/

inductive Cmd : Type 1
  /-- A question that is answered by what the site is like. -/
  | look (α : Type) (query : Site → Except (List String) α)
  /-- `Path::exists`, which is false of what cannot be inspected. -/
  | pathExists (path : AbsPath)
  | write (op : Op)
  /-- `git worktree prune` -/
  | prune
  /-- `git worktree remove` -/
  | worktreeRemove (force : Bool) (path : AbsPath)
  | removeDirAll (path : AbsPath)

@[reducible] def Cmd.Answer : Cmd → Type
  | look α _ => Except (List String) α
  | pathExists _ => Bool
  | _ => Except (List String) Unit

/-- The directory that a command removes. -/
def Cmd.removes : Cmd → Option AbsPath
  | worktreeRemove _ path | removeDirAll path => some path
  | _ => none

/-- A function that returns an `anyhow::Result`. -/
abbrev Fallible (β : Type) := Script Cmd Cmd.Answer (List String) β

def look (query : Site → Except (List String) α) : Fallible α := issue (.look α query) id

/-- A question that is put as an action. -/
def ask (x : Act α) : Fallible α := look fun s => match x s with
  | .ok a _ => .ok a
  | .error e _ => .error e

/-- A command of Git, whose complaint names its arguments. -/
def askGit (env : Services) (args : List String) (query : Site → Except Git.Error α) : Fallible α :=
  look fun s => (query s).mapError (gitFailed env args)

def bail (message : String) : Fallible β := throw [message]

/-- `value.with_context(message)?`. -/
def orBail (value : Option β) (message : String) : Fallible β :=
  match value with
  | some b => pure b
  | none => bail message

def context (message : String) (x : Fallible β) : Fallible β := mapFailure (message :: ·) x

def updateTaskWorkspaceState (taskId : ℕ) (state statusSummary : String) : Fallible Unit :=
  issue (.write (.updateTaskWorkspaceState taskId state (some statusSummary))) id

/-- The directory of a workspace, if it exists. That a path is relative is not represented. -/
def existing (workspace : TaskWorkspace) : Fallible (Option AbsPath) :=
  match workspace.path? with
  | none => pure none
  | some path => do
    if ← issue (.pathExists path) Except.ok then pure (some path) else pure none

structure CleanupPreview where
  path : AbsPath
  branch : Option String
  dirty : Bool
deriving DecidableEq, Repr

inductive CleanupOutcome
  | previewed
  | removed
deriving DecidableEq, Repr

end Removal

open Removal

/-! ## `WorkspaceManager` -/

namespace WorkspaceManager
variable (env : Services) (m : WorkspaceManager)

def previewCleanup (path : AbsPath) : Fallible CleanupPreview := do
  ask (m.ensureManagedPath path)
  match ← ask (registeredWorktree path) with
  | none => bail (path.display ++ " is not a registered Git worktree")
  | some registered =>
    let dirty ← askGit env ["status", "--porcelain"] fun s => s.status registered.path
    pure ⟨registered.path, registered.branch, dirty⟩

def previewOrphaned (path : AbsPath) : Fallible CleanupPreview := do
  let path ← look fun _ => absoluteLexical path
  pure ⟨path, none, false⟩

def removeOrphaned (path : AbsPath) : Fallible CleanupPreview := do
  let preview ← previewOrphaned path
  if ← issue (.pathExists preview.path) Except.ok then
    context ("failed to remove orphaned workspace " ++ preview.path.display)
      (issue (.removeDirAll preview.path) id)
  pure preview

def cleanup (path : AbsPath) (confirm : Bool) : Fallible (CleanupOutcome × CleanupPreview) := do
  ask (m.ensureManagedPath path)
  match ← ask (registeredWorktree path) with
  | none =>
    if !confirm then pure (.previewed, ← previewOrphaned path)
    else pure (.removed, ← removeOrphaned path)
  | some _ =>
    let preview ← m.previewCleanup env path
    if !confirm then pure (.previewed, preview)
    else
      issue (.worktreeRemove preview.dirty preview.path) id
      pure (.removed, preview)

def cleanupClean (path : AbsPath) : Fallible CleanupPreview := do
  ask (m.ensureManagedPath path)
  match ← ask (registeredWorktree path) with
  | none => removeOrphaned path
  | some _ =>
    let preview ← m.previewCleanup env path
    if preview.dirty then
      bail ("refusing automatic cleanup of dirty delivery workspace " ++ preview.path.display)
    else
      issue (.worktreeRemove false preview.path) id
      pure preview

def cleanupDisposable (path : AbsPath) : Fallible CleanupPreview := do
  ask (m.ensureManagedPath path)
  match ← ask (registeredWorktree path) with
  | none => removeOrphaned path
  | some _ =>
    let preview ← m.previewCleanup env path
    issue (.worktreeRemove true preview.path) id
    pure preview

def branchIsPushed (branch : String) : Fallible Bool := do
  ask (validateBranch env branch)
  let tip ← ask (m.resolveCommit env (.branch branch))
  let remote ← askGit env ["ls-remote", "--heads", "origin", "refs/heads/" ++ branch] fun s =>
    Git.Repository.lsRemote s.remote branch
  pure (remote = some tip)

end WorkspaceManager

/-! ## `CloneManager` -/

namespace CloneManager
variable (env : Services) (m : CloneManager)

def forIdentity (s : Site) (root : AbsPath) (identity : String) : Except (List String) CloneManager :=
  let provider := if (stripPrefix "gitlab.com/".toList identity.toList).isSome then .gitLab else .gitHub
  match validateRepository provider identity with
  | .error e => .error e
  | .ok () => CloneManager.new env s root

/-- `git_output` of `clone.rs`. -/
def askClone (query : Site → Except Git.Error α) : Fallible α :=
  look fun s => (query s).mapError fun e => ["Git command failed with " ++ env.exitStatus e]

def remove (path : AbsPath) : Fallible Unit := do
  ask (m.ensureManagedPath env path)
  if ← issue (.pathExists path) Except.ok then
    context ("failed to remove clone " ++ path.display) (issue (.removeDirAll path) id)

def previewCleanup (path : AbsPath) : Fallible CleanupPreview := do
  ask (m.ensureManagedPath env path)
  if !(← look fun s => .ok (s.clone? path).isSome) then
    bail (path.display ++ " is not a standalone Git clone")
  else
    let dirty ← askClone env fun s => s.status path
    let branch ← askClone env fun s => s.currentBranch path
    pure ⟨path, branch, dirty⟩

def branchIsPushed (path : AbsPath) (branch repositoryTokenEnv : String) : Fallible Bool := do
  ask (m.ensureManagedPath env path)
  if (env.env repositoryTokenEnv).isNone then
    throw ["repository token environment " ++ debugStr repositoryTokenEnv ++ " is missing",
      "environment variable not found"]
  else
    let head ← askClone env fun s => s.head path
    let remote ← askClone env fun s => Git.Repository.lsRemote s.remote branch
    pure (remote = some head)

end CloneManager

/-! ## `daemon.rs` -/

namespace Removal

structure RepositoryOwner where
  identity : String
  path : AbsPath
  workspaceRoot : AbsPath

/-- What the processes of one repository share. -/
structure Setup where
  crates : Crates
  env : Services
  owner : RepositoryOwner
  /-- The variable that holds the token for clones. -/
  cloneTokenEnv : Option String

variable (S : Setup)

/-- The two managers of a repository. -/
structure Managers where
  worktrees : WorkspaceManager
  clones : CloneManager

namespace Managers
variable (M : Managers) (workspace : TaskWorkspace) (path : AbsPath)

def previewCleanup : Fallible CleanupPreview :=
  if workspace.backend = .clone then M.clones.previewCleanup S.env path
  else M.worktrees.previewCleanup S.env path

/-- The removal of a clone, or else of a worktree as `f` does it. -/
def remove (f : WorkspaceManager → Fallible α) : Fallible Unit :=
  if workspace.backend = .clone then M.clones.remove S.env path
  else do
    let _ ← f M.worktrees

/-- Whether the branch of a previewed workspace is at the remote. -/
def published (branch : Option String) : Fallible Bool :=
  match branch with
  | none => pure false
  | some branch =>
    if workspace.backend = .clone then do
      let token ← orBail S.cloneTokenEnv "clone cleanup has no GitHub token source"
      M.clones.branchIsPushed S.env path branch token
    else M.worktrees.branchIsPushed S.env branch

end Managers

def managers : Fallible Managers := do
  let worktrees ← look fun s => WorkspaceManager.new S.env s S.owner.path S.owner.workspaceRoot
  let clones ← look fun s => CloneManager.forIdentity S.env s S.owner.workspaceRoot S.owner.identity
  pure ⟨worktrees, clones⟩

def taskOf (taskId : ℕ) (complaint : String) : Fallible Task := do
  orBail (← look fun s => .ok (s.ledger.tasks.get? taskId)) complaint

def workspaceOwnerIsResolved (workspace : TaskWorkspace) : Fallible Bool := do
  let task ← taskOf workspace.taskId ("task " ++ toString workspace.taskId ++ " disappeared")
  if task.repository = S.owner.identity && workspace.repository = S.owner.identity then pure true
  else
    updateTaskWorkspaceState workspace.taskId "retained"
      ("retained because workspace owner could not be resolved: expected=" ++ S.owner.identity ++ " task=" ++
        task.repository ++ " workspace=" ++ workspace.repository)
    pure false

/-- `current_commit`, with the complaint about its absence. -/
def currentCommit (path : AbsPath) (complaint : String) : Fallible String := do
  orBail (← look fun s => .ok (s.head path).toOption) complaint

def finalizeProposal (M : Managers) (workspace : TaskWorkspace) : Fallible Unit := do
  updateTaskWorkspaceState workspace.taskId "cleanup_pending" "terminal proposal"
  match ← existing workspace with
  | none =>
    updateTaskWorkspaceState workspace.taskId "cleaned" "terminal proposal workspace was already absent"
  | some path =>
    let preview ← if workspace.backend = .clone then do
        let preview ← M.clones.previewCleanup S.env path
        M.clones.remove S.env path
        pure preview
      else M.worktrees.cleanupDisposable S.env path
    updateTaskWorkspaceState workspace.taskId "cleaned"
      (if preview.dirty then "discarded terminal proposal workspace with uncommitted changes"
      else "removed terminal proposal workspace")

/-- The result of an inspection; a delivery that could not be inspected is retained. -/
def inspected (taskId : ℕ) (summary message : String) (x : Fallible β) : Fallible β := do
  match ← attempt x with
  | .ok b => pure b
  | .error error =>
    updateTaskWorkspaceState taskId "retained" summary
    throw (message :: error)

/-- Whether a delivery whose `HEAD` has moved is published. -/
def deliveryPublished (M : Managers) (workspace : TaskWorkspace) (path : AbsPath) (changed : Bool)
    (branch : Option String) : Fallible Bool :=
  if !changed then pure true
  else match branch with
    | none => pure false
    | some branch => do
      if workspace.backend = .clone && S.cloneTokenEnv.isNone then
        bail "clone cleanup has no GitHub token source"
      else
        inspected workspace.taskId "retained delivery because remote branch inspection failed"
          "failed to inspect published delivery branch" (M.published S workspace path (some branch))

def awaitsContinuation (task : Task) : Fallible Bool := do
  if task.workflow = "implement" then
    look fun s => .ok (s.ledger.latestPullRequestForTask task.id).isSome
  else pure false

def finalizeDelivery (M : Managers) (task : Task) (workspace : TaskWorkspace) (path : AbsPath) :
    Fallible Unit := do
  let preview ← inspected task.id "retained delivery because Git worktree inspection failed"
    "failed to inspect terminal delivery workspace" (M.previewCleanup S workspace path)
  let head ← currentCommit path "failed to resolve terminal task commit"
  let changed : Bool := head ≠ workspace.baseSha
  let published ← deliveryPublished S M workspace path changed preview.branch
  let awaits ← awaitsContinuation task
  if task.state = .succeeded && !preview.dirty && published && !awaits then
    updateTaskWorkspaceState task.id "cleanup_pending" automaticDeliveryCleanup
    M.remove S workspace path fun manager => manager.cleanupClean S.env path
    updateTaskWorkspaceState task.id "cleaned" "successful ticket workspace removed"
  else
    updateTaskWorkspaceState task.id "retained" ("retained ticket workspace: task=" ++ task.state.debugText ++
      " dirty=" ++ toString preview.dirty ++ " changed=" ++ toString changed ++ " published=" ++
      toString published ++ " awaits_continuation=" ++ toString awaits)

def finalizeTaskWorkspace (taskId : ℕ) : Fallible Unit := do
  -- `Ledger::open`
  look fun _ => .ok ()
  let task ← taskOf taskId ("task " ++ toString taskId ++ " disappeared during workspace finalization")
  let workspace ← orBail (← look fun s => .ok (s.ledger.taskWorkspaces.get? taskId))
    ("task " ++ toString taskId ++ " has no workspace to finalize")
  if !task.state.isTerminal then pure ()
  else if !(← workspaceOwnerIsResolved S workspace) then
    bail ("task " ++ toString taskId ++ " workspace owner could not be resolved to " ++ S.owner.identity)
  else
    let M ← managers S
    if workspace.kind = .proposal then finalizeProposal S M workspace
    else match ← existing workspace with
      | none =>
        updateTaskWorkspaceState taskId "cleaned"
          "terminal delivery workspace was already absent; local branch preserved"
      | some path => finalizeDelivery S M task workspace path

def automaticCleanupIsStillSafe (manager : WorkspaceManager) (workspace : TaskWorkspace) (path : AbsPath) :
    Fallible Bool := do
  let task ← taskOf workspace.taskId ("task " ++ toString workspace.taskId ++ " disappeared")
  if task.state ≠ .succeeded then pure false
  else
    let parent ← orBail path.parent "workspace clone has no managed root"
    let clones ← look fun s => CloneManager.forIdentity S.env s parent workspace.repository
    let M : Managers := ⟨manager, clones⟩
    let preview ← M.previewCleanup S workspace path
    if preview.dirty then pure false
    else
      let head ← currentCommit path "failed to resolve task cleanup commit"
      if head = workspace.baseSha then pure true
      else M.published S workspace path preview.branch

/-- The end of an interrupted cleanup. -/
def completing (workspace : TaskWorkspace) (x : Fallible Unit) : Fallible Unit := do
  match ← attempt x with
  | .ok () =>
    updateTaskWorkspaceState workspace.taskId "cleaned" "completed interrupted cleanup at startup"
  | .error _ => pure ()

def resumeCleanup (M : Managers) (workspace : TaskWorkspace) : Fallible Unit := do
  match ← existing workspace with
  | none => updateTaskWorkspaceState workspace.taskId "cleaned" "completed interrupted cleanup at startup"
  | some path =>
    if workspace.kind = .proposal then
      completing workspace (M.remove S workspace path fun manager => manager.cleanupDisposable S.env path)
    else if workspace.statusSummary = some operatorConfirmedCleanup then
      completing workspace (M.remove S workspace path fun manager => manager.cleanup S.env path true)
    else if workspace.statusSummary = some automaticDeliveryCleanup then
      match ← attempt (automaticCleanupIsStillSafe S M.worktrees workspace path) with
      | .ok true =>
        completing workspace (M.remove S workspace path fun manager => manager.cleanupClean S.env path)
      | .ok false =>
        updateTaskWorkspaceState workspace.taskId "retained"
          "retained after interrupted automatic cleanup revalidation"
      | .error _ =>
        updateTaskWorkspaceState workspace.taskId "retained"
          "retained because automatic cleanup could not be revalidated"
    else
      updateTaskWorkspaceState workspace.taskId "retained"
        "retained cleanup with unknown confirmation provenance"

/-- The workspaces among these whose owner is resolved. -/
def resolvedAmong : List TaskWorkspace → Fallible (List TaskWorkspace)
  | [] => pure []
  | workspace :: rest => do
    let resolved ← workspaceOwnerIsResolved S workspace
    let rest ← resolvedAmong rest
    pure (if resolved then workspace :: rest else rest)

def reconcilePendingCleanup : Fallible Unit := do
  let workspaces ← resolvedAmong S (← look fun s => .ok (s.ledger.taskWorkspacesInState .cleanupPending))
  if workspaces.isEmpty then pure ()
  else
    let M ← managers S
    issue .prune id
    workspaces.forM (resumeCleanup S M)

/-- One round of `reconcile_terminal_workspaces`. -/
def reconcileTerminalWorkspace (workspace : TaskWorkspace) : Fallible Unit := do
  if workspace.state = .cleanupPending || workspace.state = .retained then pure ()
  else if !(← workspaceOwnerIsResolved S workspace) then pure ()
  else
    let task ← taskOf workspace.taskId ("task " ++ toString workspace.taskId ++ " disappeared")
    if !task.state.isTerminal then pure ()
    else
      let runs ← look fun s => .ok (s.ledger.runsForTask task.id)
      if runs.isEmpty then
        updateTaskWorkspaceState task.id "retained"
          "terminal task has no run history for workspace reconciliation"
      else
        -- a failure is printed
        let _ ← attempt (finalizeTaskWorkspace S task.id)

def reconcileTerminalWorkspaces : Fallible Unit := do
  (← look fun s => .ok s.ledger.activeTaskWorkspaces).forM (reconcileTerminalWorkspace S)

def retainUnresolvableWorkspaces : Fallible Unit := do
  (← look fun s => .ok s.ledger.activeTaskWorkspaces).forM fun workspace => do
    let _ ← workspaceOwnerIsResolved S workspace

def reconcileRecoveryState (destructive : Bool) : Fallible Unit := do
  issue (.write (.recoverOrphanedRunsForRepository S.owner.identity)) id
  retainUnresolvableWorkspaces S
  if destructive then
    reconcilePendingCleanup S
    reconcileTerminalWorkspaces S

/-! ## `main.rs` -/

/-- The workspace is free to be removed by an operator. -/
def refuseActive (task : Task) (what : String) : Fallible Unit :=
  if task.state = .queued || task.state = .running then
    bail ("refusing to " ++ what ++ " workspace for " ++ task.state.debugText ++ " task " ++ toString task.id ++
      "; cancel or finish it first")
  else pure ()

def confirmedCleanup (M : Managers) (task : Task) (workspace : TaskWorkspace) (path : AbsPath) : Fallible Unit := do
  refuseActive task "clean"
  updateTaskWorkspaceState task.id "cleanup_pending" operatorConfirmedCleanup
  M.remove S workspace path fun manager => manager.cleanup S.env path true
  updateTaskWorkspaceState task.id "cleaned" "operator-confirmed cleanup completed"

/-- The cleanup of a directory that exists, which is previewed first. -/
def cleanupPresent (M : Managers) (task : Task) (workspace : TaskWorkspace) (path : AbsPath) (confirm : Bool) :
    Fallible Unit := do
  let _ ← if workspace.backend = .clone then M.clones.previewCleanup S.env path
    else do
      let (_, preview) ← M.worktrees.cleanup S.env path false
      pure preview
  if !confirm then pure () else confirmedCleanup S M task workspace path

def cleanupRun (runId : ℕ) (confirm : Bool) (expectedRepository : Option String) : Fallible Unit := do
  let run ← orBail (← look fun s => .ok (s.ledger.runs.get? runId))
    ("run " ++ toString runId ++ " does not exist")
  let task ← taskOf run.taskId
    ("task " ++ toString run.taskId ++ " for run " ++ toString runId ++ " does not exist")
  let workspace ← orBail (← look fun s => .ok (s.ledger.taskWorkspaces.get? task.id))
    ("run " ++ toString runId ++ " has no Flashy Factory-owned workspace")
  if expectedRepository.any fun repository =>
      run.repository ≠ repository || task.repository ≠ repository || workspace.repository ≠ repository then
    bail ("run " ++ toString runId ++ " does not have consistent ownership by repository " ++
      expectedRepository.getD "" ++ "; no cleanup was performed")
  else if workspace.state = .cleaned then pure ()
  else
    let worktrees ← look fun s => WorkspaceManager.new S.env s S.owner.path S.owner.workspaceRoot
    let clones ← look fun s => CloneManager.new S.env s S.owner.workspaceRoot
    match ← existing workspace with
    | none =>
      if !confirm then pure ()
      else
        refuseActive task "release"
        updateTaskWorkspaceState task.id "cleaned"
          "operator confirmed absent workspace; local branch preserved"
    | some path => cleanupPresent S ⟨worktrees, clones⟩ task workspace path confirm

/-! ## The machine -/

/-- What the environment decides about a command. -/
structure Choice where
  host : Host
  failure : Option (List String) := none
  /-- A write to the ledger that fails has taken effect. -/
  takesEffect : Bool := false
  /-- The repository and the directories after a change that failed halfway. -/
  aftermath : Option (GitRepository × AList fun _ : AbsPath => DirEntry) := none

/-- The site after a change to its repository or directories that failed. -/
def Choice.leaves (o : Choice) (w : Site) : Site :=
  match o.aftermath with
  | none => w
  | some (canonical, entries) => { w with canonical := canonical, entries := entries }

variable {S} in
/-- A change to the repository or the directories, which Git may refuse. -/
def change (w : Site) (o : Choice) (after : Except (List String) Site) : Except (List String) Unit × Site :=
  match o.failure, after with
  | some e, _ => (.error e, o.leaves w)
  | none, .error e => (.error e, w)
  | none, .ok after => (.ok (), after)

def exec (w : Site) (c : Cmd) (o : Choice) : c.Answer × Site :=
  match c with
  | .look _ query => (match o.failure with
    | some e => .error e
    | none => query w, w)
  | .pathExists path => (o.failure.isNone && w.pathExists path, w)
  | .write op =>
    let call : Call := ⟨o.host, op⟩
    let after : Site := { w with ledger := w.ledger.step S.crates call }
    match o.failure, w.ledger.failure? S.crates call with
    | some e, _ => (.error e, if o.takesEffect then after else w)
    | none, some e => (.error [e.message], w)
    | none, none => (.ok (), after)
  | .prune => change w o (.ok { w with canonical := w.canonical.prune w.pathExists })
  | .worktreeRemove force path =>
    let args := ["worktree", "remove"] ++ (if force then ["--force"] else []) ++ [path.display]
    change w o (match w.canonical.worktreeRemove force path with
      | .error e => .error (gitFailed S.env args e)
      | .ok r => .ok { w with canonical := r, entries := w.entries.erase path })
  | .removeDirAll path => change w o (.ok { w with entries := w.entries.erase path })

inductive Role
  /-- `finalize_task_workspace` after a run of the task. -/
  | finalize (taskId : ℕ)
  /-- `reconcile_recovery_state` of a daemon that starts. -/
  | startup (destructive : Bool)
  /-- The `cleanup` command. -/
  | cleanup (runId : ℕ) (confirm : Bool) (expectedRepository : Option String)
deriving DecidableEq

def program : Role → Prog Cmd Cmd.Answer Unit
  | .finalize taskId => detach (finalizeTaskWorkspace S taskId)
  | .startup destructive => detach (reconcileRecoveryState S destructive)
  | .cleanup runId confirm expectedRepository => detach (cleanupRun S runId confirm expectedRepository)

/-- What happens beside these processes. -/
inductive Outside
  /-- Any other operation of a daemon or a command line. -/
  | call (c : Call)
  /-- Anything that agents, operators and other daemons do to repositories, directories and the remote. -/
  | files (canonical : GitRepository) (entries : AList fun _ : AbsPath => DirEntry)
    (remote : Option (Git.Remote String String String String))

/-- Only the programs here mark a workspace for its removal. -/
def Outside.Allowed : Outside → Bool
  | .call ⟨_, .updateTaskWorkspaceState _ state _⟩ => state ≠ "cleanup_pending"
  | _ => true

def outside (w : Site) (e : Outside) : Site :=
  if !e.Allowed then w
  else match e with
    | .call c => { w with ledger := w.ledger.step S.crates c }
    | .files canonical entries remote =>
      { w with canonical := canonical, entries := entries, remote := remote }

def Setup.machine : Machine Site Cmd Cmd.Answer ℕ Role Choice Outside where
  program := program S
  exec w _ := exec S w
  mayStart _ _ := true
  start w _ _ := w
  env := outside S

abbrev Processes := Machine.State Site Cmd Cmd.Answer ℕ Role
abbrev Event := Process.Event ℕ Role Choice Outside

end Removal
end FlashyFactory
