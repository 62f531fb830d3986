import FlashyFactory.Lib.GitRepository
import FlashyFactory.Repository.Remote
import FlashyFactory.Workspace.Paths

/-! # Where workspaces live

What `workspace.rs`, `clone.rs` and `prepare_task_workspace` see and change: the ledger, the
repository of the canonical checkout with its worktrees, and the directory entries, standalone
clones among them. A command of Git has its effect in `Git.Repository`; the wording of its
complaints is a parameter. -/

namespace FlashyFactory

abbrev GitRepository : Type := Git.Repository AbsPath String String String String
abbrev WorkTree : Type := Git.WorkTree AbsPath String String String String

/-- A directory with a `.git` directory of its own. -/
structure Clone where
  repository : GitRepository
  /-- `git remote get-url origin` -/
  origin : String
  /-- The values of the configuration variables. -/
  config : String → List String

inductive DirEntry
  | file
  | symlink
  | directory
  | clone (c : Clone)

structure Site where
  ledger : Ledger
  canonical : GitRepository
  entries : AList fun _ : AbsPath => DirEntry
  /-- The branches of `origin`, if it is reachable. -/
  remote : Option (Git.Remote String String String String)

structure TicketSummary where
  number : ℕ
  title : String
deriving DecidableEq, Repr

/-- What `serde_json` reads from a payload, for each of the formats. -/
structure TicketContexts where
  /-- `SourceTicketContext`, its key and title. -/
  source : String → Option (String × String)
  project : String → Option TicketSummary
  label : String → Option TicketSummary
  ticket : String → Option TicketSummary
  /-- The complaint about a payload that is none of them. -/
  complaint : String → String

structure ForgeGitCredentials where
  tokenVariable : String
  credentialKey : String
  credentialHelper : String

def gitCredentials : RepositoryProvider → ForgeGitCredentials
  | .gitHub => ⟨"GH_TOKEN", "credential.https://github.com.helper", "!gh auth git-credential"⟩
  | .gitLab => ⟨"GITLAB_TOKEN", "credential.https://gitlab.com.helper", "!glab auth git-credential"⟩

/-- The world around a preparation. -/
structure Services where
  provider : RepositoryProvider
  host : Host
  canonicalize : AbsPath → Option CanonicalPath
  /-- The text of a failed system call. -/
  osError : String
  /-- What Git prints when it fails, and its exit status. -/
  stderr : Git.Error → String
  exitStatus : Git.Error → String
  checkRefFormat : String → Bool
  env : String → Option String
  /-- The answers of `Forge::default_branch`, in the order in which they are asked for. -/
  defaultBranch : ℕ → Except (List String) String
  /-- What the CLI of the provider leaves in the staging directory. -/
  cloneRepository : String → String → Except (List String) DirEntry
  ticketContexts : TicketContexts

namespace Site

def pathExists (s : Site) (path : AbsPath) : Bool := (s.entries.lookup path).isSome

def isDir (s : Site) (path : AbsPath) : Bool :=
  match s.entries.lookup path with
  | some .directory | some (.clone _) => true
  | _ => false

def clone? (s : Site) (path : AbsPath) : Option Clone :=
  match s.entries.lookup path with
  | some (.clone c) => some c
  | _ => none

/-- The repository that a directory belongs to, for the backend that owns it. -/
def repository? (s : Site) : WorkspaceBackend → AbsPath → Option GitRepository
  | .worktree, _ => some s.canonical
  | .clone, path => (s.clone? path).map Clone.repository

/-- What a directory holds: its `HEAD`, index and files, and the commit at `HEAD`. -/
def view? (s : Site) (backend : WorkspaceBackend) (path : AbsPath) :
    Option (WorkTree × Option String) :=
  (s.repository? backend path).bind fun r => r.view? path

end Site

/-! ## Actions -/

/-- A function that fails with a chain of messages, the outermost first. -/
abbrev Act (α : Type) : Type := EStateM (List String) Site α

namespace Act

def bail (message : String) : Act α := throw [message]

def bailIf (condition : Bool) (message : String) : Act Unit :=
  if condition then bail message else pure ()

def lift (x : Except (List String) α) : Act α :=
  match x with
  | .ok a => pure a
  | .error e => throw e

/-- `Context::context` -/
def context (message : String) (x : Act α) : Act α := fun s =>
  match x s with
  | .ok a s => .ok a s
  | .error e s => .error (message :: e) s

/-- A call of the ledger; a failed transaction is rolled back. -/
def ledger (f : Ledger → LedgerResult α) : Act α := fun s =>
  match f s.ledger with
  | .ok (a, l) => .ok a { s with ledger := l }
  | .error e => .error [e.message] s

end Act

/-- A path of a value read from the ledger: `PathBuf::from` of a relative path equals no path that
a preparation returns. -/
def TaskWorkspace.path? (workspace : TaskWorkspace) : Option AbsPath := AbsPath.ofStr? workspace.path

end FlashyFactory
