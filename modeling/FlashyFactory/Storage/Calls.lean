import FlashyFactory.Storage.Workspaces
import FlashyFactory.Lib.Transition

/-! # Runs of the ledger

A ledger is shared by any number of daemons and command lines. Each call of an operation is one
transaction, so what any number of them can do is a list of calls; a call that fails is rolled
back and leaves the ledger as it was. -/

namespace FlashyFactory

inductive Op
  | enqueueWithPayload (identity : TaskIdentity) (payload : Option String)
  | reconcileTicketPoll (repository workflow : String) (observations : List ObservedTicket)
  | registerDaemonOwner (ownerId : String) (pid : ℕ)
  | heartbeatDaemonOwner (ownerId : String)
  | removeDaemonOwner (ownerId : String)
  | initializeScheduleCursor (repository workflow fingerprint : String) (nextDueAt startupAt : ℤ)
    (ownerId : String)
  | enqueueScheduledOccurrence (identity : TaskIdentity) (payload expectedFingerprint : String)
    (expectedDueAt nextDueAt : ℤ)
  | claimAndStartRunWithWorkdirsFiltered (availableRepositories : List String)
    (workflowRuntimes : String → String → TaskKind → Option String) (ownerId : String)
    (ownerPid : ℕ) (workingDirectories : String → Option String) (allowNewTicketTasks : Bool)
  | setRunAgentProfile (runId : ℕ) (profile model reasoningEffort serviceTier : String)
  | recordRunWorkspace (runId : ℕ) (workingDirectory baseBranch baseSha : String)
    (factoryBranch : Option String) (workspaceKind : String)
  | observeRun (id : ℕ) (processId : Option ℕ)
    (processIdentity sessionId pullRequest activity : Option String)
  | resetRunRuntimeObservation (id : ℕ)
  | requestRunCancellation (id : ℕ)
  | finishRunAndTask (id : ℕ) (outcome : RunOutcome) (result error sessionId : Option String)
  | finishRunAndTaskTerminal (id : ℕ) (outcome : RunOutcome) (result error sessionId : Option String)
  | failPrelaunchAndRequeue (id : ℕ) (error : String)
  | recoverOrphanedRuns
  | recoverOrphanedRunsForRepository (repository : String)
  | reserveTaskWorkspace (workspace : TaskWorkspace)
  | updateTaskWorkspaceState (taskId : ℕ) (state : String) (statusSummary : Option String)
  | recordRunSandbox (sandbox : RunSandbox)
  | finishRunSandbox (runId : ℕ) (state : SandboxState) (exitCode : Option ℤ)
    (logs : Option String) (removed : Bool)
  | requestContinuation (repository taskGid fingerprint : String)

inductive Table
  | tasks
  | runs
  | triggerObservations
  | taskWorkspaces
  | continuations
  | runSandboxes
  | daemonOwners
  | scheduleCursors
  | scheduleOwners
deriving DecidableEq, Repr

/-- The tables that the statements of an operation write. -/
def Op.writes : Op → List Table
  | enqueueWithPayload .. => [.tasks]
  | reconcileTicketPoll .. => [.tasks, .triggerObservations]
  | registerDaemonOwner .. | heartbeatDaemonOwner .. => [.daemonOwners]
  | removeDaemonOwner .. => [.daemonOwners, .scheduleOwners]
  | initializeScheduleCursor .. => [.scheduleCursors, .scheduleOwners]
  | enqueueScheduledOccurrence .. => [.tasks, .scheduleCursors]
  | claimAndStartRunWithWorkdirsFiltered .. => [.tasks, .runs]
  | setRunAgentProfile .. | recordRunWorkspace .. | observeRun .. | resetRunRuntimeObservation .. |
    requestRunCancellation .. => [.runs]
  | finishRunAndTask .. | finishRunAndTaskTerminal .. | failPrelaunchAndRequeue .. |
    recoverOrphanedRuns | recoverOrphanedRunsForRepository .. => [.tasks, .runs]
  | reserveTaskWorkspace .. | updateTaskWorkspaceState .. => [.taskWorkspaces]
  | recordRunSandbox .. | finishRunSandbox .. => [.runSandboxes]
  | requestContinuation .. => [.tasks, .continuations]

/-- An operation and the machine it runs on. -/
structure Call where
  host : Host
  op : Op

/-- The ledger after a transaction on `l`. -/
def LedgerResult.ledger (l : Ledger) : LedgerResult α → Ledger
  | .ok (_, l') => l'
  | .error _ => l

def LedgerResult.error? : LedgerResult α → Option LedgerError
  | .ok _ => none
  | .error e => some e

theorem LedgerResult.ledger_ok {l l' : Ledger} {a : α} :
    LedgerResult.ledger l (.ok (a, l')) = l' := rfl

theorem LedgerResult.ledger_error {l : Ledger} :
    LedgerResult.ledger l (.error e : LedgerResult α) = l := rfl

/-- A transaction that does not fail succeeds. -/
theorem LedgerResult.of_error?_none {r : LedgerResult α} {l : Ledger} (h : r.error? = none) :
    ∃ a, r = .ok (a, r.ledger l) := by
  cases r with
  | error e => cases h
  | ok x => exact ⟨x.1, rfl⟩

/-- What holds of the ledger before and after every successful outcome holds after the call. -/
theorem LedgerResult.ledger_of {l : Ledger} {r : LedgerResult α} {P : Ledger → Prop} (h : P l)
    (hok : ∀ a l', r = .ok (a, l') → P l') : P (r.ledger l) := by
  cases r with
  | error e => exact h
  | ok p => exact hok p.1 p.2 rfl

namespace Ledger

/-- Performs the operation of a call and hands its result to `k`. -/
def perform (crates : Crates) (l : Ledger) (c : Call) (k : (α : Type) → LedgerResult α → γ) : γ :=
  let host := c.host
  match c.op with
  | .enqueueWithPayload identity payload => k _ (l.enqueueWithPayload host identity payload)
  | .reconcileTicketPoll repository workflow observations =>
    k _ (l.reconcileTicketPoll host repository workflow observations)
  | .registerDaemonOwner ownerId pid => k _ (l.registerDaemonOwner host ownerId pid)
  | .heartbeatDaemonOwner ownerId => k _ (l.heartbeatDaemonOwner host ownerId)
  | .removeDaemonOwner ownerId => k _ (l.removeDaemonOwner ownerId)
  | .initializeScheduleCursor repository workflow fingerprint nextDueAt startupAt ownerId =>
    k _ (l.initializeScheduleCursor host repository workflow fingerprint nextDueAt startupAt
      ownerId)
  | .enqueueScheduledOccurrence identity payload expectedFingerprint expectedDueAt nextDueAt =>
    k _ (l.enqueueScheduledOccurrence crates host identity payload expectedFingerprint
      expectedDueAt nextDueAt)
  | .claimAndStartRunWithWorkdirsFiltered availableRepositories workflowRuntimes ownerId ownerPid
      workingDirectories allowNewTicketTasks =>
    k _ (l.claimAndStartRunWithWorkdirsFiltered crates host availableRepositories
      workflowRuntimes ownerId ownerPid workingDirectories allowNewTicketTasks)
  | .setRunAgentProfile runId profile model reasoningEffort serviceTier =>
    k _ (l.setRunAgentProfile runId profile model reasoningEffort serviceTier)
  | .recordRunWorkspace runId workingDirectory baseBranch baseSha factoryBranch workspaceKind =>
    k _ (l.recordRunWorkspace runId workingDirectory baseBranch baseSha factoryBranch
      workspaceKind)
  | .observeRun id processId processIdentity sessionId pullRequest activity =>
    k _ (l.observeRun crates host id processId processIdentity sessionId pullRequest activity)
  | .resetRunRuntimeObservation id => k _ (l.resetRunRuntimeObservation host id)
  | .requestRunCancellation id => k _ (l.requestRunCancellation host id)
  | .finishRunAndTask id outcome result error sessionId =>
    k _ (l.finishRunAndTask crates host id outcome result error sessionId)
  | .finishRunAndTaskTerminal id outcome result error sessionId =>
    k _ (l.finishRunAndTaskTerminal crates host id outcome result error sessionId)
  | .failPrelaunchAndRequeue id error => k _ (l.failPrelaunchAndRequeue crates host id error)
  | .recoverOrphanedRuns => k _ (l.recoverOrphanedRuns host)
  | .recoverOrphanedRunsForRepository repository =>
    k _ (l.recoverOrphanedRunsForRepository host repository)
  | .reserveTaskWorkspace workspace => k _ (l.reserveTaskWorkspace host workspace)
  | .updateTaskWorkspaceState taskId state statusSummary =>
    k _ (l.updateTaskWorkspaceState host taskId state statusSummary)
  | .recordRunSandbox sandbox => k _ (l.recordRunSandbox sandbox)
  | .finishRunSandbox runId state exitCode logs removed =>
    k _ (l.finishRunSandbox host runId state exitCode logs removed)
  | .requestContinuation repository taskGid fingerprint =>
    k _ (l.requestContinuation crates host repository taskGid fingerprint)

def step (crates : Crates) (l : Ledger) (c : Call) : Ledger :=
  l.perform crates c fun _ r => r.ledger l

/-- What the call fails with. -/
def failure? (crates : Crates) (l : Ledger) (c : Call) : Option LedgerError :=
  l.perform crates c fun _ r => r.error?

/-- The ledger after the calls, in order. -/
def runCalls (crates : Crates) (l : Ledger) (calls : List Call) : Ledger :=
  Transition.run (step crates) l calls

/-- Every call satisfies `C` on the ledger it meets. -/
def Meets (crates : Crates) (C : Ledger → Call → Prop) (l : Ledger) (calls : List Call) : Prop :=
  Transition.Meets (step crates) C l calls

/-- The two ledgers agree on a table. -/
def Same (l l' : Ledger) : Table → Prop
  | .tasks => l'.tasks = l.tasks
  | .runs => l'.runs = l.runs
  | .triggerObservations => l'.triggerObservations = l.triggerObservations
  | .taskWorkspaces => l'.taskWorkspaces = l.taskWorkspaces
  | .continuations => l'.continuations = l.continuations
  | .runSandboxes => l'.runSandboxes = l.runSandboxes
  | .daemonOwners => l'.daemonOwners = l.daemonOwners
  | .scheduleCursors => l'.scheduleCursors = l.scheduleCursors
  | .scheduleOwners => l'.scheduleOwners = l.scheduleOwners

end Ledger

/-! ## A machine to run on

Fixed values for the runs that this development gives as examples: a machine on which every
process is alive, one autonomous ticket of one repository, and one daemon. -/

def exampleHost : Host where
  nowMillis _ := 1000000
  kill _ := true
  killpg _ := true
  processIdentity _ := none

def examplePayload : String := "\x7b\"labels\":[\"factory:auto-to-pr\"]\x7d"

def exampleCrates : Crates where
  jsonFromStr text :=
    if text = examplePayload then
      some (.object [("labels", .array [.string Ledger.autonomousLabel])])
    else none
  jsonToString _ := examplePayload
  sanitizeForStorage text := text

def exampleCalls (ops : List Op) : List Call := ops.map fun op => ⟨exampleHost, op⟩

def exampleDaemon : Op := .registerDaemonOwner "daemon-1" 7

def examplePoll (revision : String) (eligible : Bool) : Op :=
  .reconcileTicketPoll "acme/site" "implement" [⟨"101", revision, eligible, examplePayload⟩]

def exampleClaim : Op :=
  .claimAndStartRunWithWorkdirsFiltered ["acme/site"] (fun _ _ _ => some "codex") "daemon-1" 7
    (fun _ => some "/srv/acme") true

/-- The run started an agent: its process id is on record. -/
def exampleLaunch (id : ℕ) : Op := .observeRun id (some 4242) (some "boot-1") none none none

def exampleSuccess (id : ℕ) : Op := .finishRunAndTask id .succeeded none none none

/-- A workspace with a branch, which the factory does not itself reserve. -/
def exampleWorkspace (taskId : ℕ) : TaskWorkspace where
  taskId := taskId
  kind := .delivery
  backend := .worktree
  repository := "acme/site"
  baseBranch := "main"
  baseSha := "c0ffee"
  factoryBranch := some "factory/101"
  path := "/srv/work/101"
  state := .preparing
  statusSummary := none
  createdAt := 0
  updatedAt := 0
  cleanedAt := none

/-- A request to continue the ticket, with the fingerprint made of sixty-four times `digit`. -/
def exampleContinuation (digit : Char) : Op :=
  .requestContinuation "acme/site" "101" (String.ofList (List.replicate 64 digit))

end FlashyFactory
