import FlashyFactory.Workspace.Manager

/-! # Standalone clones

`CloneManager` of `clone.rs`: the preparation of a clone for Docker Sandbox mode. -/

namespace FlashyFactory

structure StandaloneClone where
  path : AbsPath
  branch : Option String
  baseBranch : String
  baseSha : String
deriving DecidableEq, Repr

structure CloneManager where
  root : CanonicalPath

def triageDirectory (taskId : ℕ) : String := "triage-" ++ toString taskId

def remoteOf : RepositoryProvider → String → Option String
  | .gitHub, repository => some ("https://github.com/" ++ repository ++ ".git")
  | .gitLab, repository => (stripPrefix "gitlab.com/".toList repository.toList).map fun project =>
    "https://gitlab.com/" ++ String.ofList project ++ ".git"

def validateRepository (provider : RepositoryProvider) (repository : String) :
    Except (List String) Unit :=
  match remoteOf provider repository with
  | none => .error ["invalid GitLab repository identity"]
  | some remote =>
    match parseRepositoryRef remote with
    | .error e => .error ["invalid repository identity", e]
    | .ok parsed =>
      if parsed.provider ≠ provider || parsed.identity ≠ repository then
        .error ["repository identity does not match selected provider"]
      else .ok ()

def validateRevision (revision : String) : Except (List String) Unit :=
  if revision.utf8ByteSize ≠ 40 || !revision.toList.all Ledger.isHexDigit then
    .error ["base commit must be a full Git SHA"]
  else .ok ()

/-- The checks of `require_standalone_clone` on the URL of `origin`. -/
def checkOrigin (provider : RepositoryProvider) (repository origin : String) :
    Except (List String) Unit :=
  match parseRepositoryRef (trim origin) with
  | .error e => .error ["clone origin is not a supported repository remote", e]
  | .ok discovered =>
    if discovered.provider ≠ provider || discovered.identity ≠ repository then
      .error ["clone origin does not match configured repository identity"]
    else .ok ()

namespace CloneManager
variable (env : Services) (m : CloneManager)

def new (s : Site) (root : AbsPath) : Except (List String) CloneManager :=
  match env.canonicalize root with
  | none => .error ["failed to resolve clone root " ++ root.display, env.osError]
  | some root =>
    if s.isDir root.toAbsPath then .ok { root }
    else .error ["clone root " ++ root.display ++ " is not a directory"]

/-- `git` of `clone.rs`: a command in a clone. -/
def git (path : AbsPath) (f : Clone → Except Git.Error Clone) : Act Unit := fun s =>
  let result : Except Git.Error Clone := match s.clone? path with
    | none => .error .notAWorkTree
    | some c => f c
  match result with
  | .ok c => .ok () { s with entries := s.entries.insert path (.clone c) }
  | .error e => .error ["Git command failed with " ++ env.exitStatus e] s

/-- `git_output` of `clone.rs`. -/
def gitOutput (path : AbsPath) (f : Clone → Except Git.Error α) : Act α := fun s =>
  let result : Except Git.Error α := match s.clone? path with
    | none => .error .notAWorkTree
    | some c => f c
  match result with
  | .ok a => .ok a s
  | .error e => .error ["Git command failed with " ++ env.exitStatus e] s

/-- A command that changes the refs or the working tree of a clone. -/
def onRepository (f : GitRepository → Except Git.Error GitRepository) (c : Clone) :
    Except Git.Error Clone :=
  (f c.repository).map fun r => { c with repository := r }

def ensureManagedPath (path : AbsPath) : Act Unit := do
  match path.parent with
  | none => Act.bail "clone path has no parent"
  | some parent =>
    match env.canonicalize parent with
    | none => throw ["failed to resolve clone parent", env.osError]
    | some parent =>
      Act.bailIf (parent.toAbsPath ≠ m.root.toAbsPath || path = m.root.toAbsPath)
        ("clone path " ++ path.display ++ " is outside " ++ m.root.display)
      let symlink := match (← get).entries.lookup path with
        | some .symlink => true
        | _ => false
      Act.bailIf symlink ("clone path " ++ path.display ++ " must not be a symlink")

def tokenOf (name : String) : Act String := do
  match env.env name with
  | none => throw ["repository token environment " ++ debugStr name ++ " is missing",
      "environment variable not found"]
  | some token =>
    Act.bailIf (isBlank token) ("repository token environment " ++ debugStr name ++ " is empty")
    pure token

/-- Clones into a staging directory and moves the result into place. -/
def publishClone (repository token : String) (path : AbsPath) : Act Unit := do
  let staged ← Act.lift (env.cloneRepository repository token)
  match staged with
  | .clone c => modify fun s => { s with entries := s.entries.insert path (.clone c) }
  | _ => Act.bail "repository CLI clone did not produce standalone Git metadata"

def requireStandaloneClone (path : AbsPath) (repository : String) : Act Unit := do
  Act.bailIf ((← get).clone? path).isNone
    ("clone " ++ path.display ++ " does not contain standalone Git metadata")
  let origin ← gitOutput env path fun c => .ok c.origin
  Act.lift (checkOrigin env.provider repository origin)

/-- `git config --replace-all key value` -/
def replaceConfig (key value : String) (c : Clone) : Clone :=
  { c with config := Function.update c.config key [value] }

/-- `git config --add key value` -/
def addConfig (key value : String) (c : Clone) : Clone :=
  { c with config := Function.update c.config key (c.config key ++ [value]) }

def fetchInto (path : AbsPath) (branch : String) : Act Unit := do
  let remote := (← get).remote
  git env path (onRepository fun r => r.fetch remote branch)

/-- The exit code of `git show-ref --verify --quiet refs/heads/..`. -/
def showRef (path : AbsPath) (branch : String) : Act ℕ := do
  match (← get).clone? path with
  | none => pure 128
  | some c => pure (if (c.repository.branches.lookup branch).isSome then 0 else 1)

/-- The exit code of `git ls-remote --exit-code --heads origin refs/heads/..`. -/
def lsRemote (branch : String) : Act ℕ := do
  match Git.Repository.lsRemote (← get).remote branch with
  | .error _ => pure 128
  | .ok tip => pure (if tip.isSome then 0 else 2)

def checkoutRemoteBranch (path : AbsPath) (branch : String) : Act Unit := do
  fetchInto env path branch
  git env path (onRepository fun r =>
    match r.remoteBranches.lookup branch with
    | none => .error .unknownRevision
    | some tip => r.checkoutReset path branch tip)

/-- The checkout of the branch of an implementation. -/
def checkoutBranch (path : AbsPath) (branch baseSha : String) : Act Unit := do
  let localBranch ← showRef path branch
  if localBranch = 0 then
    git env path (onRepository fun r => r.checkoutBranch path branch)
  else
    Act.bailIf (localBranch ≠ 1) "failed to inspect local implementation branch"
    let remote ← lsRemote branch
    if remote = 0 then checkoutRemoteBranch env path branch
    else if remote = 2 then
      git env path (onRepository fun r => r.checkoutReset path branch baseSha)
    else Act.bail "failed to inspect remote implementation branch"

def checkoutFor (path : AbsPath) (branch : Option String) (baseSha : String) : Act Unit :=
  match branch with
  | some branch => checkoutBranch env path branch baseSha
  | none => git env path (onRepository fun r => r.checkoutDetached path baseSha)

/-- The base commit of a clone, after its base branch has been fetched. -/
def refreshBase (path : AbsPath) (baseBranch baseSha : String) : Act Unit := do
  let credentials := gitCredentials env.provider
  git env path fun c => .ok (replaceConfig credentials.credentialKey "" c)
  git env path fun c => .ok (addConfig credentials.credentialKey credentials.credentialHelper c)
  fetchInto env path baseBranch
  let resolved ← gitOutput env path fun c => c.repository.revParse path (.commit baseSha)
  Act.bailIf (resolved ≠ baseSha) "clone base commit does not match the reserved source commit"

def prepare (repository : String) (taskId issue : ℕ) (title baseBranch baseSha : String)
    (implementation : Bool) (repositoryTokenEnv : String) : Act StandaloneClone := do
  Act.bailIf (taskId = 0 || implementation && issue = 0)
    "clone task IDs and implementation issue IDs must be positive"
  Act.lift (validateRepository env.provider repository)
  Act.lift (validateRevision baseSha)
  let path := m.root.join
    (if implementation then issueDirectory issue else triageDirectory taskId)
  m.ensureManagedPath env path
  let token ← tokenOf env repositoryTokenEnv
  if !(← get).pathExists path then publishClone env repository token path
  requireStandaloneClone env path repository
  refreshBase env path baseBranch baseSha
  let branch := if implementation then some (WorkspaceManager.deliveryBranch issue title) else none
  checkoutFor env path branch baseSha
  pure ⟨path, branch, baseBranch, baseSha⟩

def prepareProposal (repository : String) (taskId : ℕ) (baseBranch baseSha repositoryTokenEnv : String) :
    Act StandaloneClone :=
  m.prepare env repository taskId 0 "" baseBranch baseSha false repositoryTokenEnv

end CloneManager
end FlashyFactory
