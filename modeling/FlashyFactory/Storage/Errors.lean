import FlashyFactory.Storage.Records

/-! # What a ledger operation can fail with

One constructor for each failure of the modelled operations; `message` is the text that the
operator sees. An operation that fails returns no ledger: its transaction is rolled back. -/

namespace FlashyFactory

/-- A character in the `{:?}` form of a Rust string; outside ASCII it stands for itself. -/
def debugChar (c : Char) : String :=
  if c = '"' then "\\\""
  else if c = '\\' then "\\\\"
  else if c = '\n' then "\\n"
  else if c = '\r' then "\\r"
  else if c = '\t' then "\\t"
  else if c.toNat = 0 then "\\0"
  else if c.toNat < 32 || c.toNat = 127 then
    "\\u\x7b" ++ String.ofList (Nat.toDigits 16 c.toNat) ++ "\x7d"
  else String.singleton c

/-- The `{:?}` form of a string. -/
def debugStr (s : String) : String := "\"" ++ String.join (s.toList.map debugChar) ++ "\""

def debugOption : Option String → String
  | none => "None"
  | some s => "Some(" ++ debugStr s ++ ")"

inductive LedgerError
  | emptyIdentityField (name : String)
  | taskDisappeared
  | emptyPollKey
  | emptyObservation
  | observedTaskDisappeared
  | runGoneBeforeWorkspace (runId : ℕ)
  | differentWorkspace (taskId : ℕ)
  | deliveryWorktreeLimit (runIds : List ℕ)
  | workspaceNotReserved
  | reservedWorkspaceDisappeared
  | invalidWorkspaceState (state : String)
  | noWorkspace (taskId : ℕ)
  | activeWorkspaceExists (path : Bool)
  | emptyScheduleKey
  | occurrenceNotAfterStartup
  | liveOwnerOtherFingerprint (repository workflow fingerprint : String)
  | scheduleOwnerNotRegistered
  | notScheduledIdentity
  | occurrenceNotAfterDue
  | payloadNotJson
  | payloadNotObject
  | scheduledTaskDisappeared
  | cursorChanged
  | noLiveLease (ownerId : String)
  | runtimeDisappeared
  | notClaimedAtomically (taskId : ℕ)
  | recoveryAttemptUnresolved
  | workingDirectoryDisappeared
  | runNotCreated
  | claimedTaskDisappeared
  | claimedRunDisappeared
  | emptyAgentProfile
  | runGoneBeforeProfile (runId : ℕ)
  | runMissingOrLaunched (runId : ℕ)
  | runChangedDuringPrelaunch (runId : ℕ)
  | taskChangedDuringPrelaunch (taskId : ℕ)
  | prelaunchRunDisappeared
  | outcomeNotTerminal
  | runMissingOrTerminal (runId : ℕ)
  | taskNotRunning (taskId : ℕ)
  | completedRunDisappeared
  | cancelledRunDisappeared
  | processIdNotPositive
  | emptyRecoveryRepository
  | processTreeNotStopped (runId : ℕ)
  | emptyOwnerId
  | ownerLeaseExpired (ownerId : String)
  | invalidPullRequestEventKey
  | emptyAssociationField
  | notCanonicalUrl
  | contradictoryAssociation (taskGid : String)
  | associationNotPersisted
  | runNotRunningForSandbox (runId : ℕ)
  | sandboxNotPersisted
  | noSandbox (runId : ℕ)
deriving DecidableEq, Repr

def LedgerError.message : LedgerError → String
  | emptyIdentityField name => "task identity " ++ name ++ " must not be empty"
  | taskDisappeared => "task disappeared during enqueue transaction"
  | emptyPollKey => "poll repository and workflow must not be empty"
  | emptyObservation => "observed ticket source item and revision must not be empty"
  | observedTaskDisappeared => "observed ticket task disappeared"
  | runGoneBeforeWorkspace runId =>
    "running run " ++ toString runId ++ " disappeared before workspace persistence"
  | differentWorkspace taskId => "task " ++ toString taskId ++
    " already owns a different workspace; refusing to replace durable Git ownership"
  | deliveryWorktreeLimit runIds =>
    "Flashy Factory retains at most ten delivery worktrees; run `factory cleanup <run-id>` for one of: "
      ++ String.intercalate ", " (runIds.map toString)
  | workspaceNotReserved => "failed to reserve task workspace"
  | reservedWorkspaceDisappeared => "reserved task workspace disappeared"
  | invalidWorkspaceState state => "invalid task workspace state " ++ debugStr state
  | noWorkspace taskId => "task " ++ toString taskId ++ " has no workspace to update"
  | activeWorkspaceExists path => "UNIQUE constraint failed: task_workspaces." ++
    if path then "path" else "factory_branch"
  | emptyScheduleKey => "schedule repository, workflow, fingerprint, and owner must not be empty"
  | occurrenceNotAfterStartup => "initialized schedule occurrence must be after startup"
  | liveOwnerOtherFingerprint repository workflow fingerprint =>
    "schedule " ++ repository ++ "/" ++ workflow ++ " has live owner using different fingerprint "
      ++ debugStr fingerprint
  | scheduleOwnerNotRegistered => "failed to register schedule owner"
  | notScheduledIdentity => "scheduled occurrence requires a scheduled task identity"
  | occurrenceNotAfterDue => "next scheduled occurrence must follow the due occurrence"
  | payloadNotJson => "scheduled occurrence payload is not valid JSON"
  | payloadNotObject => "scheduled occurrence payload must be a JSON object"
  | scheduledTaskDisappeared => "scheduled occurrence task disappeared"
  | cursorChanged => "scheduled occurrence cursor changed during enqueue"
  | noLiveLease ownerId => "daemon owner " ++ debugStr ownerId ++ " has no live lease for task claims"
  | runtimeDisappeared => "claimed workflow runtime disappeared"
  | notClaimedAtomically taskId =>
    "queued task " ++ toString taskId ++ " could not be claimed atomically"
  | recoveryAttemptUnresolved => "failed to resolve recovery attempt"
  | workingDirectoryDisappeared => "claimed repository working directory disappeared"
  | runNotCreated => "failed to create run in task claim transaction"
  | claimedTaskDisappeared => "claimed task disappeared"
  | claimedRunDisappeared => "claimed run disappeared"
  | emptyAgentProfile => "resolved agent profile fields must not be empty"
  | runGoneBeforeProfile runId => "running run " ++ toString runId ++
    " disappeared before its agent profile could be persisted"
  | runMissingOrLaunched runId =>
    "run " ++ toString runId ++ " is missing, terminal, or already launched"
  | runChangedDuringPrelaunch runId =>
    "run " ++ toString runId ++ " changed during prelaunch recovery"
  | taskChangedDuringPrelaunch taskId =>
    "task " ++ toString taskId ++ " changed during prelaunch recovery"
  | prelaunchRunDisappeared => "failed prelaunch run disappeared"
  | outcomeNotTerminal => "finish_run_and_task requires a terminal outcome"
  | runMissingOrTerminal runId => "run " ++ toString runId ++ " is missing or already terminal"
  | taskNotRunning taskId =>
    "task " ++ toString taskId ++ " is not running; run completion was not recorded"
  | completedRunDisappeared => "completed run disappeared"
  | cancelledRunDisappeared => "cancelled run disappeared"
  | processIdNotPositive => "run process ID must be positive"
  | emptyRecoveryRepository => "recovery repository must not be empty"
  | processTreeNotStopped runId =>
    "failed to stop orphaned process tree for run " ++ toString runId
  | emptyOwnerId => "daemon owner ID must not be empty"
  | ownerLeaseExpired ownerId =>
    "daemon owner " ++ debugStr ownerId ++ " is not registered or its lease expired"
  | invalidPullRequestEventKey =>
    "pull-request event must have a repository, task GID, and SHA-256 fingerprint"
  | emptyAssociationField => "pull-request association fields must not be empty"
  | notCanonicalUrl =>
    "pull-request association must use a canonical URL for the configured repository"
  | contradictoryAssociation taskGid =>
    "task " ++ taskGid ++ " already has a contradictory pull-request association"
  | associationNotPersisted => "failed to persist pull-request association"
  | runNotRunningForSandbox runId =>
    "run " ++ toString runId ++ " must be running before sandbox persistence"
  | sandboxNotPersisted => "failed to persist run sandbox"
  | noSandbox runId => "run " ++ toString runId ++ " has no persisted sandbox"

end FlashyFactory
