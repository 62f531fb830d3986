import FlashyFactory.Lib.KeyedTable
import Mathlib

/-! # The rows of the ledger

The records that `storage.rs` keeps in SQLite. A column with a `CHECK (.. IN ..)` constraint is
an inductive type, so a value outside the list cannot be written; a `PRIMARY KEY` is the key of
a `KeyedTable`. Row ids are natural numbers and clock readings are milliseconds in `ℤ`. -/

namespace FlashyFactory

/-! ## Text -/

/-- The characters that Rust's `str::trim` removes: those with the property `White_Space`. -/
def isWhiteSpace (c : Char) : Bool :=
  let n := c.toNat
  (9 ≤ n && n ≤ 13) || n = 0x20 || n = 0x85 || n = 0xA0 || n = 0x1680 ||
    (0x2000 ≤ n && n ≤ 0x200A) || n = 0x2028 || n = 0x2029 || n = 0x202F || n = 0x205F || n = 0x3000

/-- `value.trim().is_empty()`. -/
def isBlank (value : String) : Bool := value.toList.all isWhiteSpace

/-- `str::trim` -/
def trim (s : String) : String :=
  String.ofList (((s.toList.dropWhile isWhiteSpace).reverse.dropWhile isWhiteSpace).reverse)

/-- The longest prefix of at most `n` bytes that ends between two characters. -/
def takeBytes : ℕ → List Char → List Char
  | _, [] => []
  | n, c :: cs => if c.utf8Size ≤ n then c :: takeBytes (n - c.utf8Size) cs else []

theorem utf8ByteSize_eq (s : String) : s.utf8ByteSize = (s.toList.map Char.utf8Size).sum := by
  obtain ⟨cs, rfl⟩ : ∃ cs, s = String.ofList cs := ⟨s.toList, by simp⟩
  induction cs with
  | nil => rfl
  | cons c cs ih =>
    have hsplit : String.ofList (c :: cs) = String.singleton c ++ String.ofList cs := by
      apply String.toList_injective
      simp
    rw [hsplit, String.utf8ByteSize_append, ih, String.utf8ByteSize_singleton]
    simp

def truncateUtf8 (value : String) (maximumBytes : ℕ) : String :=
  if value.utf8ByteSize ≤ maximumBytes then value
  else String.ofList (takeBytes maximumBytes value.toList)

def truncateTailUtf8 (value : String) (maximumBytes : ℕ) : String :=
  if value.utf8ByteSize ≤ maximumBytes then value
  else String.ofList (takeBytes maximumBytes value.toList.reverse).reverse

def maxResultBytes : ℕ := 256 * 1024
def maxErrorBytes : ℕ := 64 * 1024
def maxSessionIdBytes : ℕ := 1024
def maxActivityBytes : ℕ := 64 * 1024
def maxPullRequestBytes : ℕ := 2048
def maxRecoveryAttempts : ℕ := 2
def daemonOwnerLeaseMillis : ℤ := 10000

/-- A JSON value, as `serde_json` reads it. -/
inductive Json
  | null
  | bool (b : Bool)
  | number (n : String)
  | string (s : String)
  | array (items : List Json)
  | object (fields : List (String × Json))

namespace Json

def get? : Json → String → Option Json
  | object fields, name => fields.lookup name
  | _, _ => none

def asArray? : Json → Option (List Json)
  | array items => some items
  | _ => none

def asStr? : Json → Option String
  | string s => some s
  | _ => none

/-- `Map::insert`. -/
def insertField (fields : List (String × Json)) (name : String) (value : Json) :
    List (String × Json) :=
  if fields.any (·.1 = name) then fields.map fun f => if f.1 = name then (name, value) else f
  else fields ++ [(name, value)]

end Json

/-- The third-party code that the ledger calls: `serde_json` and the redaction patterns of
`sanitize_for_storage`, which are regular expressions. -/
structure Crates where
  jsonFromStr : String → Option Json
  jsonToString : Json → String
  sanitizeForStorage : String → String

/-- What one call of the ledger sees of the machine it runs on. -/
structure Host where
  /-- The answers of `now_millis`, in the order in which the call asks. -/
  nowMillis : ℕ → ℤ
  /-- Whether signal 0 to the process is answered by `Ok` or `EPERM`. -/
  kill : ℕ → Bool
  /-- Whether `SIGKILL` to the process group is answered by `Ok` or `ESRCH`. -/
  killpg : ℕ → Bool
  processIdentity : ℕ → Option String

def maxI32 : ℕ := 2147483647

def Host.processIsAlive (host : Host) (processId : ℕ) : Bool :=
  processId ≤ maxI32 && host.kill processId

/-! ## Enumerations -/

inductive TaskState
  | queued
  | running
  | succeeded
  | failed
  | cancelled
deriving DecidableEq, Repr

def TaskState.isTerminal : TaskState → Bool
  | succeeded | failed | cancelled => true
  | _ => false

/-- `tasks.kind`. -/
inductive TaskKind
  | ticket
  | scheduled
deriving DecidableEq, Repr

inductive RunOutcome
  | running
  | succeeded
  | failed
  | cancelled
deriving DecidableEq, Repr

/-- `task_workspaces.kind`. -/
inductive WorkspaceKind
  | delivery
  | proposal
deriving DecidableEq, Repr

/-- `task_workspaces.backend`. -/
inductive WorkspaceBackend
  | worktree
  | clone
deriving DecidableEq, Repr

/-- `task_workspaces.state`. -/
inductive WorkspaceState
  | preparing
  | ready
  | retained
  | cleanupPending
  | cleaned
deriving DecidableEq, Repr

def WorkspaceState.ofStr? : String → Option WorkspaceState
  | "preparing" => some preparing
  | "ready" => some ready
  | "retained" => some retained
  | "cleanup_pending" => some cleanupPending
  | "cleaned" => some cleaned
  | _ => none

/-- `run_sandboxes.state`. -/
inductive SandboxState
  | creating
  | created
  | exited
  | timedOut
  | cancelled
  | error
  | recovered
  | retained
  | removing
  | removed
deriving DecidableEq, Repr

/-! ## Task identities -/

inductive TaskIdentity
  | ticket (repository workflow ticket revision : String)
  | scheduled (repository workflow scheduledAt : String)
deriving DecidableEq, Repr

namespace TaskIdentity

/-- The fields that `validate` checks, in its order. -/
def fields : TaskIdentity → List (String × String)
  | ticket repository workflow item revision =>
    [("repository", repository), ("workflow", workflow), ("ticket", item), ("revision", revision)]
  | scheduled repository workflow scheduledAt =>
    [("repository", repository), ("workflow", workflow), ("scheduled_at", scheduledAt)]

/-- A length-prefixed component; the length is in bytes. -/
def component (value : String) : String := toString value.utf8ByteSize ++ ":" ++ value

def key : TaskIdentity → String
  | ticket repository workflow item revision =>
    "ticket:" ++ component repository ++ ":" ++ component workflow ++ ":" ++ component item ++ ":"
      ++ component revision
  | scheduled repository workflow scheduledAt =>
    "scheduled:" ++ component repository ++ ":" ++ component workflow ++ ":" ++ component scheduledAt

def repository : TaskIdentity → String
  | ticket repository _ _ _ => repository
  | scheduled repository _ _ => repository

def workflow : TaskIdentity → String
  | ticket _ workflow _ _ => workflow
  | scheduled _ workflow _ => workflow

def sourceItem : TaskIdentity → Option String
  | ticket _ _ item _ => some item
  | scheduled _ _ _ => none

def kind : TaskIdentity → TaskKind
  | ticket _ _ _ _ => .ticket
  | scheduled _ _ _ => .scheduled

end TaskIdentity

/-! ## Records -/

structure Task where
  id : ℕ
  identityKey : String
  kind : TaskKind
  repository : String
  workflow : String
  sourceItem : Option String
  payload : Option String
  state : TaskState
  createdAt : ℤ
  updatedAt : ℤ
  recoverySourceRunId : Option ℕ
deriving DecidableEq, Repr

structure EnqueuedTask where
  task : Task
  created : Bool
deriving DecidableEq, Repr

structure ObservedTicket where
  sourceItem : String
  revision : String
  eligible : Bool
  payload : String
deriving DecidableEq, Repr

/-- A row of `trigger_observations`. -/
structure TriggerObservation where
  repository : String
  workflow : String
  sourceItem : String
  revision : String
  eligible : Bool
  payload : String
  observedAt : ℤ
deriving DecidableEq, Repr

def TriggerObservation.key (o : TriggerObservation) : String × String × String :=
  (o.repository, o.workflow, o.sourceItem)

structure Run where
  id : ℕ
  taskId : ℕ
  workflow : String
  repository : String
  sourceItem : Option String
  runtime : String
  startedAt : ℤ
  finishedAt : Option ℤ := none
  outcome : RunOutcome
  result : Option String := none
  error : Option String := none
  sessionId : Option String := none
  cancellationRequestedAt : Option ℤ := none
  ownerPid : Option ℕ := none
  ownerId : Option String := none
  processId : Option ℕ := none
  processIdentity : Option String := none
  pullRequest : Option String := none
  lastActivityAt : ℤ
  activity : Option String := none
  workingDirectory : Option String := none
  recoveryOf : Option ℕ := none
  recoveryAttempt : ℕ := 0
  baseBranch : Option String := none
  baseSha : Option String := none
  factoryBranch : Option String := none
  workspaceKind : Option String := none
  agentProfile : Option String := none
  model : Option String := none
  reasoningEffort : Option String := none
  serviceTier : Option String := none
deriving DecidableEq, Repr

structure TaskWorkspace where
  taskId : ℕ
  kind : WorkspaceKind
  backend : WorkspaceBackend
  repository : String
  baseBranch : String
  baseSha : String
  factoryBranch : Option String
  path : String
  state : WorkspaceState
  statusSummary : Option String
  createdAt : ℤ
  updatedAt : ℤ
  cleanedAt : Option ℤ
deriving DecidableEq, Repr

/-- A row of `autonomous_continuations`. -/
structure Continuation where
  repository : String
  taskGid : String
  fingerprint : String
  taskId : ℕ
  requestedAt : ℤ
deriving DecidableEq, Repr

def Continuation.key (c : Continuation) : String × String × String :=
  (c.repository, c.taskGid, c.fingerprint)

structure RunSandbox where
  runId : ℕ
  sandboxName : String
  instanceId : String
  templateRef : String
  sbxVersion : String
  limitsJson : String
  state : SandboxState
  exitCode : Option ℤ
  logs : Option String
  createdAt : ℤ
  updatedAt : ℤ
  removedAt : Option ℤ
deriving DecidableEq, Repr

structure DaemonOwner where
  ownerId : String
  pid : ℕ
  heartbeatAt : ℤ
deriving DecidableEq, Repr

/-- A row of `schedule_cursors`. -/
structure ScheduleCursor where
  repository : String
  workflow : String
  fingerprint : String
  nextDueAt : ℤ
  updatedAt : ℤ
deriving DecidableEq, Repr

def ScheduleCursor.key (c : ScheduleCursor) : String × String := (c.repository, c.workflow)

structure ScheduleOwner where
  repository : String
  workflow : String
  ownerId : String
  fingerprint : String
deriving DecidableEq, Repr

def ScheduleOwner.key (o : ScheduleOwner) : String × String × String :=
  (o.repository, o.workflow, o.ownerId)

structure ClaimedRun where
  task : Task
  run : Run
deriving DecidableEq, Repr

inductive CancellationRequest
  | requested (run : Run)
  | alreadyRequested (run : Run)
  | terminal (run : Run)
  | ownedElsewhere (run : Run)
  | notFound
deriving DecidableEq, Repr

inductive ContinuationRequest
  | queued
  | duplicate
  /-- `Unsafe` in the source. -/
  | isUnsafe
  | limitReached
deriving DecidableEq, Repr

/-- `RepositoryRecoveryReport`, with the fields of its `RecoveryReport`. -/
structure RecoveryReport where
  recoveredRunIds : List ℕ := []
  exhaustedRunIds : List ℕ := []
  unresolvedRunIds : List ℕ := []
deriving DecidableEq, Repr

/-- The database. -/
structure Ledger where
  tasks : KeyedTable Task.id := ∅
  runs : KeyedTable Run.id := ∅
  triggerObservations : KeyedTable TriggerObservation.key := ∅
  taskWorkspaces : KeyedTable TaskWorkspace.taskId := ∅
  continuations : KeyedTable Continuation.key := ∅
  runSandboxes : KeyedTable RunSandbox.runId := ∅
  daemonOwners : KeyedTable DaemonOwner.ownerId := ∅
  scheduleCursors : KeyedTable ScheduleCursor.key := ∅
  scheduleOwners : KeyedTable ScheduleOwner.key := ∅

/-- The database of a fresh data directory. -/
def Ledger.empty : Ledger := {}

end FlashyFactory
