import FlashyFactory.Workspace.Site

/-! # Worktrees of the canonical checkout

`WorkspaceManager` of `workspace.rs`: the preparation of a worktree for a delivery or a
proposal. -/

namespace FlashyFactory

/-- `MAX_RETAINED_WORKSPACES` -/
def maxRetainedWorkspaces : ℕ := 10

/-- Whether a worktree was made or was there. -/
inductive WorkspaceDisposition
  | created
  | reused
deriving DecidableEq, Repr

/-- What a task may find: nothing, a clean checkout of its base, or its own earlier work. -/
inductive DeliveryReuse
  | reject
  | exactBase
  | owned
deriving DecidableEq, Repr

/-- `Workspace` of `workspace.rs`. -/
structure PreparedWorkspace where
  kind : WorkspaceKind
  path : AbsPath
  branch : Option String
  baseBranch : String
  baseSha : String
  disposition : WorkspaceDisposition
deriving DecidableEq, Repr

/-- A worktree in the list of Git, with the branch that it has checked out. -/
structure RegisteredWorktree where
  path : AbsPath
  branch : Option String
deriving DecidableEq, Repr

/-- The canonical checkout and the directory that its worktrees are put into. -/
structure WorkspaceManager where
  repository : CanonicalPath
  workspaceRoot : CanonicalPath

/-- `git_output` of `workspace.rs`: the complaint about a command that failed. -/
def gitFailed (env : Services) (args : List String) (e : Git.Error) : List String :=
  ["git " ++ String.intercalate " " args ++ " failed: " ++ env.stderr e]

/-- How a revision is spelled. -/
def revisionText : Git.Revision String String → String
  | .head => "HEAD"
  | .commit sha => sha
  | .branch name => "refs/heads/" ++ name
  | .remoteBranch name => "refs/remotes/origin/" ++ name

/-- A path is compared as it is spelled, so it may not climb. -/
def absoluteLexical (path : AbsPath) : Except (List String) AbsPath :=
  if ".." ∈ path.components then .error ["workspace path must not contain '..': " ++ path.display]
  else .ok path

/-- The worktree stands at the path. -/
def RegisteredWorktree.isAt (path : AbsPath) (item : RegisteredWorktree) : Bool :=
  match absoluteLexical item.path with
  | .ok candidate => candidate = path
  | .error _ => false

/-- A directory that the configuration names. -/
def canonicalDirectory (env : Services) (s : Site) (name : String) (path : AbsPath) :
    Except (List String) CanonicalPath :=
  match env.canonicalize path with
  | some directory =>
    if s.isDir directory.toAbsPath then .ok directory
    else .error [name ++ " must be an existing absolute directory: " ++ path.display]
  | none => .error [name ++ " must be an existing absolute directory: " ++ path.display]

/-- `git rev-parse --show-toplevel` -/
def showToplevel (s : Site) (dir : AbsPath) : Except Git.Error AbsPath :=
  match dir.ancestors.find? fun path => (s.canonical.workTree? path).isSome with
  | some path => .ok path
  | none => .error .notAWorkTree

/-- `format!("issue-{issue}")`, and whether a directory entry is named so. -/
def issueDirectory (issue : ℕ) : String := "issue-" ++ toString issue
def proposalDirectory (id : ℕ) : String := "proposal-" ++ toString id

def isIssueDirectory (name : String) : Bool :=
  match stripPrefix "issue-".toList name.toList with
  | some issue => issue ≠ [] && issue.all isAsciiDigit
  | none => false

namespace WorkspaceManager

/-- The root of the primary checkout that a directory belongs to. -/
def primaryCheckout (env : Services) (s : Site) (dir : AbsPath) : Except (List String) CanonicalPath :=
  match showToplevel s dir with
  | .error e => .error (gitFailed env ["rev-parse", "--show-toplevel"] e)
  | .ok toplevel =>
    match env.canonicalize toplevel with
    | none => .error ["failed to canonicalize Git repository root", env.osError]
    | some actual => .ok actual

/-- The primary checkout and the root of the worktrees may not contain one another. -/
def new (env : Services) (s : Site) (repository workspaceRoot : AbsPath) :
    Except (List String) WorkspaceManager :=
  match canonicalDirectory env s "repository" repository with
  | .error e => .error e
  | .ok repository =>
    match canonicalDirectory env s "workspace root" workspaceRoot with
    | .error e => .error e
    | .ok workspaceRoot =>
      if repository.toAbsPath = workspaceRoot.toAbsPath ||
          repository.startsWith workspaceRoot.toAbsPath ||
          workspaceRoot.startsWith repository.toAbsPath then
        .error ["workspace root " ++ workspaceRoot.display ++ " must not overlap repository " ++
          repository.display]
      else
        match primaryCheckout env s repository.toAbsPath with
        | .error e => .error e
        | .ok actual =>
          if actual.toAbsPath ≠ repository.toAbsPath then
            .error ["configured repository " ++ repository.display ++
              " is not Git's primary checkout " ++ actual.display]
          else .ok { repository, workspaceRoot }

/-- The issue number is the durable delivery identity. -/
def deliveryBranch (issue : ℕ) (_title : String) : String := "factory/" ++ toString issue

variable (env : Services) (m : WorkspaceManager)

/-- A command that changes the repository. -/
def git (args : List String) (f : Site → Except Git.Error GitRepository) : Act Unit := fun s =>
  match f s with
  | .ok r => .ok () { s with canonical := r }
  | .error e => .error (gitFailed env args e) s

/-- `git check-ref-format --branch`, for a name that cannot be taken for an option. -/
def validateBranch (branch : String) : Act Unit := do
  Act.bailIf (isBlank branch || branch.toList.head? = some '-') "base branch is invalid"
  Act.context ("invalid base branch " ++ branch) (Act.lift
    (if env.checkRefFormat branch then .ok ()
    else .error (gitFailed env ["check-ref-format", "--branch", branch] .unknownRevision)))

/-- The commit that a revision stands for in a worktree. -/
def resolveCommitIn (directory : AbsPath) (rev : Git.Revision String String) (complaint : String) :
    Act String := do
  Act.bailIf (isBlank (revisionText rev) || (revisionText rev).toList.head? = some '-') complaint
  let s ← get
  match s.canonical.revParse directory rev with
  | .ok sha => pure sha
  | .error e =>
    throw (gitFailed env ["rev-parse", "--verify", revisionText rev ++ "^\x7bcommit\x7d"] e)

/-- The commit that a revision stands for in the canonical checkout. -/
def resolveCommit (rev : Git.Revision String String) : Act String :=
  resolveCommitIn env m.repository.toAbsPath rev "base SHA must be a non-empty object name"

/-- `git worktree prune` -/
def prune : Act Unit :=
  git env ["worktree", "prune"] fun s => .ok (s.canonical.prune s.pathExists)

/-- `parse_worktrees` of what `git worktree list --porcelain` prints. -/
def worktrees : Act (List RegisteredWorktree) := do
  let s ← get
  pure (s.canonical.workTreeList.map fun w => ⟨w.1, w.2⟩)

/-- The worktree that has a branch checked out. -/
def worktreeForBranch (branch : String) : Act (Option AbsPath) := do
  let found := (← worktrees).filter fun item => item.branch = some branch
  Act.bailIf (1 < found.length) ("branch " ++ branch ++ " is checked out in multiple worktrees")
  pure (found.head?.map RegisteredWorktree.path)

/-- The worktree at a path. -/
def registeredWorktree (path : AbsPath) : Act (Option RegisteredWorktree) := do
  let path ← Act.lift (absoluteLexical path)
  pure ((← worktrees).find? (RegisteredWorktree.isAt path))

/-- The path lies directly under the root of the worktrees. -/
def ensureManagedPath (path : AbsPath) : Act Unit := do
  let path ← Act.lift (absoluteLexical path)
  Act.bailIf (path = m.repository.toAbsPath)
    ("refusing to target canonical checkout " ++ path.display)
  Act.bailIf (path.parent ≠ some m.workspaceRoot.toAbsPath)
    ("workspace " ++ path.display ++ " is outside managed root " ++ m.workspaceRoot.display)

/-- Nothing is at the path yet, and it is a managed one. -/
def ensureAvailableTarget (path : AbsPath) : Act Unit := do
  ensureManagedPath m path
  Act.bailIf ((← get).pathExists path) ("workspace target " ++ path.display ++
    " exists but is not reusable; inspect it before cleanup")

/-- The worktree has the reserved base checked out, and nothing has been changed in it. -/
def requireCleanExactBase (path : AbsPath) (baseSha : String) : Act Unit := do
  let head ← resolveCommitIn env path .head "commit must be a non-empty object name"
  let dirty := (← get).canonical.isDirty path
  Act.bailIf (head ≠ baseSha || dirty) ("preparing workspace " ++ path.display ++
    " is not a clean checkout of reserved base " ++ baseSha ++
    "; refusing stale or unowned recovery state")

/-- The directories that are named after an issue, whether or not Git knows them. -/
def retainedCount : Act ℕ := do
  let s ← get
  pure (s.entries.entries.countP fun e =>
    e.1.parent = some m.workspaceRoot.toAbsPath &&
      e.1.components.getLast?.any isIssueDirectory && s.isDir e.1)

/-- A further delivery is refused at the limit. -/
def requireCapacity : Act Unit := do
  let retained ← m.retainedCount
  Act.bailIf (maxRetainedWorkspaces ≤ retained) ("workspace retention limit reached (" ++
    toString retained ++ "/" ++ toString maxRetainedWorkspaces ++ "); cleanup is required")

/-- The branch is in the canonical checkout. -/
def branchExists (branch : String) : Act Bool := do
  pure ((← get).canonical.branches.lookup branch).isSome

/-- `git worktree add`, which makes the directory. -/
def worktreeAdd (args : List String) (path : AbsPath) (f : Site → Except Git.Error GitRepository) :
    Act Unit := do
  git env (["worktree", "add"] ++ args) f
  modify fun s => { s with entries := s.entries.insert path .directory }

/-- The tip of the default branch at the remote, after it was fetched. -/
def fetchDefaultBranch (baseBranch : String) : Act String := do
  validateBranch env baseBranch
  let refspec := "+refs/heads/" ++ baseBranch ++ ":refs/remotes/origin/" ++ baseBranch
  Act.context ("failed to fetch origin default branch " ++ baseBranch)
    (git env ["fetch", "--no-tags", "origin", refspec] fun s => s.canonical.fetch s.remote baseBranch)
  m.resolveCommit env (.remoteBranch baseBranch)

/-- The branch of the issue is checked out somewhere: the task goes on there, if it may. -/
def reuseDelivery (branch baseBranch baseSha : String) (reuse : DeliveryReuse) (path : AbsPath) :
    Act PreparedWorkspace := do
  Act.bailIf (reuse = .reject) ("Flashy Factory branch " ++ branch ++
    " already has a worktree; a new task cannot adopt prior or unowned Git state")
  m.ensureManagedPath path
  if reuse = .exactBase then requireCleanExactBase env path baseSha
  pure ⟨.delivery, path, some branch, baseBranch, baseSha, .reused⟩

/-- The worktree of an existing branch, which is preserved exactly as it is. -/
def addExistingBranch (branch baseSha : String) (reuse : DeliveryReuse) (path : AbsPath) :
    Act Unit := do
  Act.bailIf (reuse = .reject) ("Flashy Factory branch " ++ branch ++
    " already exists; inspect or remove it before approving a new task")
  if reuse = .exactBase then
    let tip ← m.resolveCommit env (.branch branch)
    Act.bailIf (tip ≠ baseSha) ("Flashy Factory branch " ++ branch ++
      " does not match the reserved base; refusing stale or unowned recovery state")
  worktreeAdd env [path.display, branch] path fun s =>
    match s.canonical.branches.lookup branch with
    | none => .error .unknownRevision
    | some tip => s.canonical.worktreeAdd s.pathExists path (some branch) tip

/-- A new worktree for the issue, on its old branch if there is one. -/
def createDelivery (issue : ℕ) (branch baseBranch baseSha : String) (reuse : DeliveryReuse) :
    Act PreparedWorkspace := do
  m.requireCapacity
  let path := m.workspaceRoot.join (issueDirectory issue)
  m.ensureAvailableTarget path
  if ← branchExists branch then m.addExistingBranch env branch baseSha reuse path
  else worktreeAdd env ["-b", branch, path.display, baseSha] path fun s =>
    s.canonical.worktreeAddNew s.pathExists path branch baseSha
  pure ⟨.delivery, path, some branch, baseBranch, baseSha, .created⟩

/-- The worktree of an issue at a reserved base, made or found. -/
def prepareDelivery (issue : ℕ) (title baseBranch baseSha : String) (reuse : DeliveryReuse) :
    Act PreparedWorkspace := do
  Act.bailIf (issue = 0) "issue number must be greater than zero"
  validateBranch env baseBranch
  let baseSha ← m.resolveCommit env (.commit baseSha)
  prune env
  let branch := deliveryBranch issue title
  validateBranch env branch
  match ← worktreeForBranch branch with
  | some path => m.reuseDelivery env branch baseBranch baseSha reuse path
  | none => m.createDelivery env issue branch baseBranch baseSha reuse

/-- There is a worktree at the path of the proposal: the task goes on there, if it may. -/
def reuseProposal (path : AbsPath) (existing : RegisteredWorktree) (baseBranch baseSha : String)
    (reuse : DeliveryReuse) : Act PreparedWorkspace := do
  Act.bailIf (reuse = .reject) ("proposal workspace " ++ path.display ++
    " already exists; a new task cannot adopt prior or unowned Git state")
  m.ensureManagedPath existing.path
  Act.bailIf existing.branch.isSome ("proposal workspace " ++ path.display ++ " is not detached")
  if reuse = .exactBase then requireCleanExactBase env existing.path baseSha
  pure ⟨.proposal, existing.path, none, baseBranch, baseSha, .reused⟩

/-- A new worktree for a proposal, on no branch. -/
def createProposal (path : AbsPath) (baseBranch baseSha : String) : Act PreparedWorkspace := do
  m.ensureAvailableTarget path
  worktreeAdd env ["--detach", path.display, baseSha] path fun s =>
    s.canonical.worktreeAdd s.pathExists path none baseSha
  pure ⟨.proposal, path, none, baseBranch, baseSha, .created⟩

/-- The worktree of a proposal at a reserved base, made or found. -/
def prepareProposal (runId : ℕ) (baseBranch baseSha : String) (reuse : DeliveryReuse) :
    Act PreparedWorkspace := do
  Act.bailIf (runId = 0) "run id must be greater than zero"
  validateBranch env baseBranch
  let baseSha ← m.resolveCommit env (.commit baseSha)
  prune env
  let path := m.workspaceRoot.join (proposalDirectory runId)
  match ← registeredWorktree path with
  | some existing => m.reuseProposal env path existing baseBranch baseSha reuse
  | none => m.createProposal env path baseBranch baseSha

end WorkspaceManager
end FlashyFactory
